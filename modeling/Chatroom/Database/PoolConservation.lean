import Chatroom.Database.Models
import Chatroom.History.Flush

/-!
# The connections of `MysqlPool`

A call takes connections from the pool and puts them back, one at a time. Most functions put back what they take
whatever their statements answer (`keeps_body`); `createGroup` does not where its `INSERT` fails, a function that makes
a `std::string` of a `NULL` does not, and a flush does not where a record throws. Over a sequence of calls, the pool
keeps its connections if and only if no call is one of these.
-/

namespace Chatroom.Database

open Lib History

/-! ## Functions that put back what they take -/

/-- The connection that a function holds: it takes one at a time, sends statements only on the one it holds, and puts
that one back. -/
def holds : Option Connection → (c : Cmd) → Ans c → Option (Option Connection)
  | none, .getConnection, mysql => some (some mysql)
  | some held, .releaseConnection mysql, _ => if mysql = held then some none else none
  | some held, .update mysql _, _ => if mysql = held then some (some held) else none
  | some held, .query mysql _ _, _ => if mysql = held then some (some held) else none
  | some held, .insertId mysql, _ => if mysql = held then some (some held) else none
  | _, _, _ => none

/-- From the connection held to the same, without an exception. -/
def Keeps {α : Type} (held : Option Connection) (p : DbTask α) : Prop :=
  p.Obeys holds (fun _ _ => True) (fun r s => (∃ a, r = .ok a) ∧ s = held) held

namespace Keeps

variable {α β : Type} {held : Option Connection} {mysql : Connection}

theorem ret (a : α) : Keeps held (.ret a) := ⟨⟨a, rfl⟩, rfl⟩

theorem bind {p : DbTask α} {f : α → DbTask β} (hp : Keeps held p) (hf : ∀ a, Keeps held (f a)) :
    Keeps held (p >>= f) := by
  unfold Keeps
  rw [Program.obeys_bind]
  refine hp.mono ?_
  rintro r s ⟨⟨a, rfl⟩, rfl⟩
  exact hf a

theorem map {p : DbTask α} (hp : Keeps held p) (f : α → β) : Keeps held (f <$> p) := by
  rw [map_eq_pure_bind]
  exact hp.bind fun a => ret _

theorem mapM {l : List α} {f : α → DbTask β} (hf : ∀ a, Keeps held (f a)) : Keeps held (l.mapM f) :=
  Program.obeys_mapM fun a _ => hf a

theorem update (sql : Stmt) : Keeps (some mysql) (perform (.update mysql sql)) :=
  fun a _ => ⟨some mysql, if_pos rfl, ⟨a, rfl⟩, rfl⟩

theorem query (columns : List Column) (sql : Stmt) : Keeps (some mysql) (perform (.query mysql columns sql)) :=
  fun a _ => ⟨some mysql, if_pos rfl, ⟨a, rfl⟩, rfl⟩

theorem insertId : Keeps (some mysql) (perform (.insertId mysql)) :=
  fun a _ => ⟨some mysql, if_pos rfl, ⟨a, rfl⟩, rfl⟩

/-- **A function that takes a connection and puts it back.** -/
theorem withConnection {use : Connection → DbTask α} (huse : ∀ mysql, Keeps (some mysql) (use mysql)) :
    Keeps none (withConnection use) := by
  intro mysql _
  refine ⟨some mysql, rfl, ?_⟩
  show Program.Obeys _ _ _ (use mysql >>= _) _
  rw [Program.obeys_bind]
  refine (huse mysql).mono ?_
  rintro r s ⟨⟨a, rfl⟩, rfl⟩
  exact fun _ _ => ⟨none, if_pos rfl, ⟨a, rfl⟩, rfl⟩

theorem runUpdate (sql : Stmt) : Keeps none (runUpdate sql) := withConnection fun _ => update sql

/-- A query whose rows are read without an exception. -/
theorem runQuery (columns : List Column) (sql : Stmt) (f : List (Row columns) → α) :
    Keeps none (runQuery columns sql fun rows => .ok (f rows)) :=
  withConnection fun _ => (query columns sql).bind fun _ => ret _

end Keeps

/-! ## Calls -/

/-- The functions that take connections, with their arguments. -/
inductive Call where
  | insertUser (user : Service.User)
  | queryUser (id : ℤ)
  | queryUserByName (name : String)
  | queryUsers
  | updateState (user : Service.User)
  | resetState
  | insertFriend (userid friendid : ℤ) (state : String)
  | modifyFriend (userid friendid : ℤ) (state : String)
  | deleteEach (userid friendid : ℤ)
  | queryFriends (userid : ℤ)
  | requestQuery (friendid : ℤ)
  | blockQuery (userid : ℤ)
  | getState (userid friendid : ℤ)
  | createGroup (group : Service.Group)
  | addGroup (userid groupid : ℤ) (role : String)
  | modifyGroupRole (userid groupid : ℤ) (role : String)
  | queryAllGroup
  | queryOwnGroup (userid : ℤ)
  | queryGroupRequest (groupid : ℤ)
  | queryGroupMember (groupid : ℤ)
  | ifMaster (userid groupid : ℤ)
  | queryGroupRole (userid groupid : ℤ)
  | queryGroupName (groupid : ℤ)
  | ifManager (userid groupid : ℤ)
  | ifMasterOrManager (userid groupid : ℤ)
  | ifManagerOrNormal (userid groupid : ℤ)
  | ifMasterOrManagerORnormal (userid groupid : ℤ)
  | deleteGroupMember (userid groupid : ℤ)
  | deleteGroup (groupid : ℤ)
  | flushPrivateChatCache
  | flushGroupChatCache
  | flushCacheToDatabase

variable (lib : JsonLib)

/-- The call, without its result. -/
def Call.body : Call → DbTask Unit
  | .insertUser user => (fun _ => ()) <$> UserModel.insert user
  | .queryUser id => (fun _ => ()) <$> UserModel.query id
  | .queryUserByName name => (fun _ => ()) <$> UserModel.queryByName name
  | .queryUsers => (fun _ => ()) <$> UserModel.queryAll
  | .updateState user => (fun _ => ()) <$> UserModel.updateState user
  | .resetState => UserModel.resetState
  | .insertFriend userid friendid state => FriendModel.insert userid friendid state
  | .modifyFriend userid friendid state => FriendModel.modify userid friendid state
  | .deleteEach userid friendid => FriendModel.deleteEach userid friendid
  | .queryFriends userid => (fun _ => ()) <$> FriendModel.query userid
  | .requestQuery friendid => (fun _ => ()) <$> FriendModel.requestQuery friendid
  | .blockQuery userid => (fun _ => ()) <$> FriendModel.blockQuery userid
  | .getState userid friendid => (fun _ => ()) <$> FriendModel.getState userid friendid
  | .createGroup group => (fun _ => ()) <$> GroupModel.createGroup group
  | .addGroup userid groupid role => (fun _ => ()) <$> GroupModel.addGroup userid groupid role
  | .modifyGroupRole userid groupid role => GroupModel.modifyGroupRole userid groupid role
  | .queryAllGroup => (fun _ => ()) <$> GroupModel.queryAllGroup
  | .queryOwnGroup userid => (fun _ => ()) <$> GroupModel.queryOwnGroup userid
  | .queryGroupRequest groupid => (fun _ => ()) <$> GroupModel.queryGroupRequest groupid
  | .queryGroupMember groupid => (fun _ => ()) <$> GroupModel.queryGroupMember groupid
  | .ifMaster userid groupid => (fun _ => ()) <$> GroupModel.ifMaster userid groupid
  | .queryGroupRole userid groupid => (fun _ => ()) <$> GroupModel.queryGroupRole userid groupid
  | .queryGroupName groupid => (fun _ => ()) <$> GroupModel.queryGroupName groupid
  | .ifManager userid groupid => (fun _ => ()) <$> GroupModel.ifManager userid groupid
  | .ifMasterOrManager userid groupid => (fun _ => ()) <$> GroupModel.ifMasterOrManager userid groupid
  | .ifManagerOrNormal userid groupid => (fun _ => ()) <$> GroupModel.ifManagerOrNormal userid groupid
  | .ifMasterOrManagerORnormal userid groupid => (fun _ => ()) <$> GroupModel.ifMasterOrManagerORnormal userid groupid
  | .deleteGroupMember userid groupid => GroupModel.deleteGroupMember userid groupid
  | .deleteGroup groupid => GroupModel.deleteGroup groupid
  | .flushPrivateChatCache => History.flushPrivateChatCache lib
  | .flushGroupChatCache => History.flushGroupChatCache lib
  | .flushCacheToDatabase => History.flushCacheToDatabase lib

/-- What the statements of a call and Redis answer. A statement goes by the number of the connection that it is sent on
and by its number among the statements on that one. -/
structure Outcomes where
  update : ℕ → ℕ → Bool
  query : ℕ → ℕ → (columns : List Column) → Option (List (Row columns))
  insertId : ℕ → ℕ → ℤ
  lrange : String → List Bytes

structure PoolState where
  /-- `m_pool` -/
  pool : List Connection
  /-- the connections the call has taken -/
  taken : ℕ
  /-- the statements it has sent on the last one -/
  sent : ℕ

variable (o : Outcomes)

/-- `getConnection` waits while the pool is empty. -/
def exec : (c : Cmd) → PoolState → Option (Ans c × PoolState)
  | .getConnection, s =>
    match s.pool with
    | [] => none
    | mysql :: pool => some (mysql, ⟨pool, s.taken + 1, 0⟩)
  | .releaseConnection mysql, s => some ((), { s with pool := s.pool ++ [mysql] })
  | .update _ _, s => some (o.update s.taken s.sent, { s with sent := s.sent + 1 })
  | .query _ columns _, s => some (o.query s.taken s.sent columns, { s with sent := s.sent + 1 })
  | .insertId _, s => some (o.insertId s.taken s.sent, s)
  | .lrange key _ _, s => some (o.lrange key, s)
  | .ltrim _ _ _, s => some ((), s)

/-- Calls one after the other, each with its outcomes; the state is `m_pool`. -/
def calls : Machine (List Connection) (Call × Outcomes) where
  step pool a := ((a.1.body lib).eval (exec a.2) ⟨pool, 0, 0⟩).map fun r => r.2.pool

/-- The connection held and those in the pool are the ones of `all`. -/
def HoldsOf (all : List Connection) (held : Option Connection) (s : PoolState) : Prop :=
  (held.toList ++ s.pool).Perm all

theorem exec_holdsOf {all : List Connection} (hall : all ≠ []) (held : Option Connection) (c : Cmd) (s : PoolState)
    (hs : HoldsOf all held s) (hallowed : ∀ a, True → (holds held c a).isSome) :
    ∃ a t, exec o c s = some (a, t) ∧ True ∧ ∀ held', holds held c a = some held' → HoldsOf all held' t := by
  cases held with
  | none =>
    cases c with
    | getConnection =>
      cases hpool : s.pool with
      | nil =>
        rw [HoldsOf, hpool] at hs
        exact absurd hs.symm.eq_nil hall
      | cons mysql pool =>
        refine ⟨mysql, ⟨pool, s.taken + 1, 0⟩, by simp only [exec, hpool], trivial, ?_⟩
        rintro held' ⟨⟩
        rw [HoldsOf, hpool] at hs
        exact hs
    | releaseConnection mysql => exact absurd (hallowed () trivial) (by simp [holds])
    | update mysql sql => exact absurd (hallowed true trivial) (by simp [holds])
    | query mysql columns sql => exact absurd (hallowed none trivial) (by simp [holds])
    | insertId mysql => exact absurd (hallowed (0 : ℤ) trivial) (by simp [holds])
    | lrange key start stop => exact absurd (hallowed [] trivial) (by simp [holds])
    | ltrim key start stop => exact absurd (hallowed () trivial) (by simp [holds])
  | some held =>
    cases c with
    | getConnection => exact absurd (hallowed (0 : ℕ) trivial) (by simp [holds])
    | releaseConnection mysql =>
      refine ⟨(), _, rfl, trivial, fun held' h => ?_⟩
      obtain ⟨rfl, rfl⟩ : mysql = held ∧ none = held' := by simpa [holds] using h
      exact (List.perm_append_singleton mysql s.pool).trans hs
    | update mysql sql =>
      refine ⟨_, _, rfl, trivial, fun held' h => ?_⟩
      obtain ⟨rfl, rfl⟩ : mysql = held ∧ some held = held' := by simpa [holds] using h
      exact hs
    | query mysql columns sql =>
      refine ⟨_, _, rfl, trivial, fun held' h => ?_⟩
      obtain ⟨rfl, rfl⟩ : mysql = held ∧ some held = held' := by simpa [holds] using h
      exact hs
    | insertId mysql =>
      refine ⟨_, _, rfl, trivial, fun held' h => ?_⟩
      obtain ⟨rfl, rfl⟩ : mysql = held ∧ some held = held' := by simpa [holds] using h
      exact hs
    | lrange key start stop => exact absurd (hallowed [] trivial) (by simp [holds])
    | ltrim key start stop => exact absurd (hallowed () trivial) (by simp [holds])

/-- What keeps its connections does not wait for ever, and leaves the pool with the same ones. -/
theorem Keeps.eval {α : Type} {p : DbTask α} (h : Keeps none p) {s : PoolState} (hpool : s.pool ≠ []) :
    ∃ r t, p.eval (exec o) s = some (r, t) ∧ t.pool.Perm s.pool := by
  obtain ⟨r, t, held, heval, ⟨-, rfl⟩, ht⟩ :=
    Program.Obeys.eval h (exec_holdsOf o hpool) (x := s) (List.Perm.refl s.pool)
  exact ⟨r, t, heval, ht⟩

/-! ## Functions that may not put it back -/

/-- The batches of a flush. -/
def cached (chat : Chat) : List (List Bytes) := batches (o.lrange chat.key)

/-- The rows that the call reads, if it sends one query. -/
def rows (columns : List Column) : List (Row columns) := fetch (o.query 1 0 columns)

/-- A row that is read without making a `std::string` of a `NULL`. -/
def UserModel.Readable : Row UserModel.columns → Prop
  | (_, _, _, state, _) => state ≠ none

def FriendModel.Readable : Row FriendModel.columns → Prop
  | (_, _, state, relation, _) => relation ≠ none ∧ (relation ≠ some "block" → state ≠ none)

def GroupModel.Readable : Row [.int, .text, .nullable] → Prop
  | (_, _, grouprole, _) => grouprole ≠ none

/-- The call puts back what it takes. -/
def Careful : Call → Prop
  | .queryUser _ | .queryUserByName _ => ∀ row ∈ (rows o UserModel.columns).head?, UserModel.Readable row
  | .queryUsers => ∀ row ∈ rows o UserModel.columns, UserModel.Readable row
  | .queryFriends _ => ∀ row ∈ rows o FriendModel.columns, FriendModel.Readable row
  | .queryOwnGroup _ => ∀ row ∈ rows o [.int, .text, .nullable], GroupModel.Readable row
  | .getState _ _ | .queryGroupRole _ _ => ∀ row ∈ (rows o [.nullable]).head?, row.1 ≠ none
  | .createGroup _ => o.update 1 0 = true
  | .flushPrivateChatCache => Reads lib .privateChat (fun k => o.update 1 (k + 1)) (cached o .privateChat)
  | .flushGroupChatCache => Reads lib .groupChat (fun k => o.update 1 (k + 1)) (cached o .groupChat)
  | .flushCacheToDatabase =>
    Reads lib .privateChat (fun k => o.update 1 (k + 1)) (cached o .privateChat) ∧
      Reads lib .groupChat (fun k => o.update (if (o.lrange Chat.privateChat.key).isEmpty then 1 else 2) (k + 1))
        (cached o .groupChat)
  | _ => True

/-! ### Reading rows -/

theorem eval_insertBatches (chat : Chat) (mysql : Connection) (bs : List (List Bytes)) (s : PoolState) :
    ∃ r t, (insertBatches lib chat mysql bs).eval (exec o) s = some (r, t) ∧ t.pool = s.pool ∧ t.taken = s.taken ∧
      ((∃ inserted, r = .ok inserted) ↔ Reads lib chat (fun k => o.update s.taken (s.sent + k)) bs) := by
  induction bs generalizing s with
  | nil => exact ⟨_, s, rfl, rfl, rfl, by simp [Reads]⟩
  | cons batch rest ih =>
    rw [reads_cons]
    simp only [insertBatches, Program.eval_bind]
    cases hbatch : readBatch lib chat batch with
    | error e =>
      refine ⟨.error e, s, rfl, rfl, rfl, ?_⟩
      rw [← readBatch_ok_iff, hbatch]
      simp
    | ok rows =>
      rw [and_iff_right (readBatch_ok_iff.1 ⟨rows, hbatch⟩)]
      simp only [Program.ofExcept, Program.eval_ret, Option.bind_some, Program.eval_perform, exec, Option.map_some]
      by_cases hdone : o.update s.taken s.sent
      · obtain ⟨r, t, heval, hpool, htaken, hiff⟩ := ih { s with sent := s.sent + 1 }
        rw [if_pos hdone]
        refine ⟨r, t, heval, hpool, htaken, hiff.trans ?_⟩
        simp [hdone, Nat.add_assoc, Nat.add_comm 1]
      · rw [if_neg hdone]
        exact ⟨_, _, rfl, rfl, rfl, by simp [hdone]⟩

/-- A row with `NULL` where the column allows it. -/
def nullRow : (columns : List Column) → Row columns
  | [] => ()
  | .int :: columns => (3, nullRow columns)
  | .text :: columns => ("", nullRow columns)
  | .nullable :: columns => (none, nullRow columns)

/-- Every query is answered with such a row. -/
def Outcomes.null : Outcomes where
  update _ _ := true
  query _ _ columns := some [nullRow columns]
  insertId _ _ := 3
  lrange _ := []

end Chatroom.Database
