import Chatroom.Json

/-!
# Chat records, from the JSON text in Redis to the row in MySQL

`storePrivateMessageInCache` and `storeGroupMessageInCache` make a JSON object of a message, the flush reads
its fields and puts them into an `INSERT`. The message passes through `escapeSQLString` and MySQL's reading
of a string literal on its way; the other fields are quoted as they are.
-/

namespace Chatroom.History

/-! ## String literals -/

/-- `escapeSQLString` -/
def escapeSQLString : List Char → List Char
  | [] => []
  | c :: l =>
    if c = '\'' then '\'' :: '\'' :: escapeSQLString l
    else if c = '\\' then '\\' :: '\\' :: escapeSQLString l
    else c :: escapeSQLString l

/-- The character MySQL reads for a backslash and `c`. -/
def unescapeChar (c : Char) : List Char :=
  if c = '0' then ['\x00']
  else if c = 'b' then ['\x08']
  else if c = 'n' then ['\n']
  else if c = 'r' then ['\r']
  else if c = 't' then ['\t']
  else if c = 'Z' then ['\x1a']
  else if c = '%' ∨ c = '_' then ['\\', c]
  else [c]

/-- MySQL's reading of what stands between the quotes of a literal; a single quote ends it too early. -/
def readSQLString : List Char → Option (List Char)
  | [] => some []
  | ['\''] => none
  | ['\\'] => none
  | '\'' :: c :: l => if c = '\'' then (readSQLString l).map ('\'' :: ·) else none
  | '\\' :: c :: l => (readSQLString l).map (unescapeChar c ++ ·)
  | c :: l => (readSQLString l).map (c :: ·)

/-- A character that a literal holds as it is. -/
def Plain (c : Char) : Prop := c ≠ '\'' ∧ c ≠ '\\'

instance : DecidablePred Plain := fun c => inferInstanceAs (Decidable (c ≠ '\'' ∧ c ≠ '\\'))

theorem readSQLString_cons {c : Char} (h : Plain c) (l : List Char) :
    readSQLString (c :: l) = (readSQLString l).map (c :: ·) := by
  obtain ⟨hquote, hback⟩ := h
  cases l with
  | nil => simp [readSQLString, hquote, hback]
  | cons d l => simp [readSQLString, hquote, hback]

/-- **MySQL reads what was escaped.** -/
theorem readSQLString_escapeSQLString (l : List Char) : readSQLString (escapeSQLString l) = some l := by
  induction l with
  | nil => rfl
  | cons c l ih =>
    rw [escapeSQLString]
    split
    case isTrue hquote =>
      subst hquote
      simp [readSQLString, ih]
    case isFalse hquote =>
      split
      case isTrue hback =>
        subst hback
        rw [readSQLString, ih]
        rfl
      case isFalse hback =>
        rw [readSQLString_cons ⟨hquote, hback⟩, ih]
        rfl

theorem readSQLString_plain {l : List Char} (h : ∀ c ∈ l, Plain c) : readSQLString l = some l := by
  induction l with
  | nil => rfl
  | cons c l ih =>
    rw [readSQLString_cons (h c (by simp)), ih fun d hd => h d (by simp [hd])]
    rfl

theorem plain_of_isDigit {c : Char} (h : c.isDigit) : Plain c := by
  refine ⟨?_, ?_⟩ <;>
    · rintro rfl
      exact absurd h (by decide)

/-- `std::to_string` of an id needs no escaping. -/
theorem plain_toString (n : ℤ) : ∀ c ∈ (toString n).toList, Plain c := by
  intro c hc
  rcases Json.isDigit_of_mem_toString hc with hdigit | rfl
  · exact plain_of_isDigit hdigit
  · exact ⟨by decide, by decide⟩

/-! ## Records -/

/-- The two caches, each with its table. -/
inductive Chat where
  /-- `private_chat_cache` and `private_chat_history` -/
  | privateChat
  /-- `group_chat_cache` and `group_chat_history` -/
  | groupChat
  deriving DecidableEq

/-- What `getCurrentTimestamp` returns, in the format `%Y-%m-%d %X`. -/
structure Timestamp where
  text : String
  plain : ∀ c ∈ text.toList, Plain c

theorem plain_morning : ∀ c ∈ "2024-08-12 10:00:00".toList, Plain c := by
  simp [Plain]

/-- The arguments of a store call, and its time. For a private message the ids are sender and receiver, for a
group message group and sender. -/
structure ChatRecord where
  id₁ : ℤ
  id₂ : ℤ
  message : String
  timestamp : Timestamp

/-- `chat_record` -/
def ChatRecord.json : Chat → ChatRecord → Json
  | .privateChat, r => .obj [("message", .str r.message), ("receiver_id", .str (toString r.id₂)),
      ("sender_id", .str (toString r.id₁)), ("timestamp", .str r.timestamp.text)]
  | .groupChat, r => .obj [("group_id", .str (toString r.id₁)), ("message", .str r.message),
      ("sender_id", .str (toString r.id₂)), ("timestamp", .str r.timestamp.text)]

/-- The fields that the columns of the `INSERT` take, in the order of the columns. -/
def Chat.columns : Chat → List String
  | .privateChat => ["sender_id", "receiver_id", "message", "timestamp"]
  | .groupChat => ["group_id", "sender_id", "message", "timestamp"]

/-- The literals of one row of the `INSERT`. -/
def literals (chat : Chat) (record : Json) : Except Exn (List String) :=
  chat.columns.mapM fun column => do
    let value ← record.stringField column
    return if column = "message" then String.ofList (escapeSQLString value.toList) else value

/-- The row MySQL stores, when each literal is one. -/
def storedRow (literals : List String) : Option (List String) :=
  literals.mapM fun l => (readSQLString l.toList).map String.ofList

/-- The values of a record, in the order of the columns. -/
def ChatRecord.values (r : ChatRecord) : List String := [toString r.id₁, toString r.id₂, r.message, r.timestamp.text]

/-- What the flush makes of a cached record. -/
def insertedRow (chat : Chat) (record : Json) : Option (List String) :=
  (literals chat record).toOption.bind storedRow

/-- What stands between the quotes in the row of a record. -/
def ChatRecord.literals (r : ChatRecord) : List String :=
  [toString r.id₁, toString r.id₂, String.ofList (escapeSQLString r.message.toList), r.timestamp.text]

theorem literals_json (chat : Chat) (r : ChatRecord) : literals chat (r.json chat) = .ok r.literals := by
  cases chat <;> rfl

/-- **Every stored message becomes its own row.** -/
theorem insertedRow_json (chat : Chat) (r : ChatRecord) : insertedRow chat (r.json chat) = some r.values := by
  rw [insertedRow, literals_json, ChatRecord.literals]
  simp only [Except.toOption, Option.bind_some, storedRow, List.mapM_cons, List.mapM_nil,
    readSQLString_plain (plain_toString _), readSQLString_plain r.timestamp.plain, String.toList_ofList,
    readSQLString_escapeSQLString, Option.map_some, String.ofList_toList]
  rfl

end Chatroom.History
