import Chatroom.Lib.Protocol
import Chatroom.History.ChatRecord

/-!
# MySQL and Redis, one command at a time

What `UserModel`, `FriendModel`, `GroupModel` and `CacheManager` are made of: taking a connection from `MysqlPool` and
putting it back, one statement on a connection (`MySQL`), one Redis command (`Redis`). What a command answers is
left open here.
-/

namespace Chatroom.Database

open Lib History

/-- A `std::shared_ptr<MySQL>`. -/
abbrev Connection := ℕ

/-! ## Statements -/

/-- An argument of `sprintf`. -/
inductive Arg where
  /-- for `%d` -/
  | int (n : ℤ)
  /-- for `%s` -/
  | str (s : String)

/-- What `%s` prints of `s.c_str()`; a NUL ends it. -/
def cStr (s : String) : String := String.ofList (s.toList.takeWhile (· ≠ '\x00'))

def Arg.text : Arg → List Char
  | .int n => (toString n).toList
  | .str s => (cStr s).toList

/-- `sprintf` with the conversions that the models use; the buffer is taken to be long enough. -/
def sprintf : List Char → List Arg → List Char
  | '%' :: 'd' :: format, arg :: args => arg.text ++ sprintf format args
  | '%' :: 's' :: format, arg :: args => arg.text ++ sprintf format args
  | c :: format, args => c :: sprintf format args
  | [], _ => []

/-- The literals of a row, between their quotes. -/
def tuple (literals : List String) : String :=
  "(" ++ ", ".intercalate (literals.map fun l => "'" ++ l ++ "'") ++ ")"

/-- What is passed to `MySQL::update` and `MySQL::query`. -/
inductive Stmt where
  | formatted (format : String) (args : List Arg)
  /-- a batch of `flushPrivateChatCache` or `flushGroupChatCache`, by the literals of its rows -/
  | insertHistory (chat : Chat) (rows : List (List String))
  | startTransaction
  | commit
  | rollback

def Stmt.text : Stmt → String
  | .formatted format args => String.ofList (sprintf format.toList args)
  | .insertHistory .privateChat rows =>
    "INSERT INTO private_chat_history (sender_id, receiver_id, message, timestamp) VALUES " ++
      ",".intercalate (rows.map tuple) ++ ";"
  | .insertHistory .groupChat rows =>
    "INSERT INTO group_chat_history (group_id, sender_id, message, timestamp) VALUES " ++
      ",".intercalate (rows.map tuple) ++ ";"
  | .startTransaction => "START TRANSACTION"
  | .commit => "COMMIT"
  | .rollback => "ROLLBACK"

example : (Stmt.formatted "update user set state = '%s' where id = %d" [.str "online", .int 3]).text =
    "update user set state = 'online' where id = 3" := by decide

/-! ## Rows -/

inductive Column where
  /-- an `int`, read with `atoi` or `std::stoi` -/
  | int
  | text
  /-- a column of `init.sql` without `NOT NULL` -/
  | nullable

abbrev Column.type : Column → Type
  | .int => ℤ
  | .text => String
  | .nullable => Option String

/-- A `MYSQL_ROW`. -/
def Row : List Column → Type
  | [] => Unit
  | c :: columns => c.type × Row columns

/-- A `std::string` made of a column; of the null pointer that stands for `NULL` there is none. -/
def toStdString : Option String → Except Exn String
  | some s => .ok s
  | none => .error .logicError

/-! ## Commands -/

inductive Cmd where
  /-- `MysqlPool::getConnection`; waits while there is none -/
  | getConnection
  /-- `MysqlPool::releaseConnection` -/
  | releaseConnection (mysql : Connection)
  /-- `MySQL::update`: whether `mysql_query` succeeded -/
  | update (mysql : Connection) (sql : Stmt)
  /-- `MySQL::query` and the rows that `mysql_fetch_row` returns; none if it returned `nullptr` -/
  | query (mysql : Connection) (columns : List Column) (sql : Stmt)
  /-- `mysql_insert_id` -/
  | insertId (mysql : Connection)
  /-- `Redis::lrange` -/
  | lrange (key : String) (start stop : ℤ)
  /-- `Redis::ltrim` -/
  | ltrim (key : String) (start stop : ℤ)

/-- The answer to a command. -/
@[reducible] def Ans : Cmd → Type
  | .getConnection => Connection
  | .releaseConnection _ => Unit
  | .update _ _ => Bool
  | .query _ columns _ => Option (List (Row columns))
  | .insertId _ => ℤ
  | .lrange _ _ _ => List Bytes
  | .ltrim _ _ _ => Unit

/-- Functions throw what `json.hpp` throws, and `std::logic_error`. -/
abbrev DbTask := Program Ans Exn

abbrev perform (c : Cmd) : DbTask (Ans c) := Program.perform c

/-- The use of a connection in a function that takes one and puts it back at its ends. An exception leaves the function
before it is put back. -/
def withConnection {α : Type} (use : Connection → DbTask α) : DbTask α := do
  let mysql ← perform .getConnection
  let result ← use mysql
  perform (.releaseConnection mysql)
  return result

end Chatroom.Database
