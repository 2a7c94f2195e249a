import Chatroom.Database.Lexer
import Chatroom.History.FlushFailure

/-!
# The `INSERT`s of a flush, read back

`readInsert` reads a statement as MySQL would: the lexer of single quotes, then the tuples after `VALUES`. From the
statements that the flush of a list sends, it reads the records of the list (`flush_statements`): any messages, and ids
and times that have neither quotes nor backslashes, since these are not escaped.
-/

namespace Chatroom.History

open Lib Database

/-! ## Reading an `INSERT` -/

/-- What stands before the tuples. -/
def Chat.header : Chat → String
  | .privateChat => "INSERT INTO private_chat_history (sender_id, receiver_id, message, timestamp) VALUES "
  | .groupChat => "INSERT INTO group_chat_history (group_id, sender_id, message, timestamp) VALUES "

/-- The tuples of a statement, inside a tuple whose values so far are `row`. -/
def readTuples (row : List String) : List Piece → Option (List (List String))
  | .literal v :: .code ',' :: .code ' ' :: rest => readTuples (row ++ [String.ofList v]) rest
  | .literal v :: .code ')' :: .code ',' :: .code '(' :: rest =>
    (readTuples [] rest).map ((row ++ [String.ofList v]) :: ·)
  | [.literal v, .code ')', .code ';'] => some [row ++ [String.ofList v]]
  | _ => none

/-- The tuples that an `INSERT` into the table of `chat` inserts; none if it is no such statement. -/
def readInsert (chat : Chat) (sql : String) : Option (List (List String)) := do
  let pieces ← lex sql.toList
  let header := (chat.header ++ "(").toList.map Piece.code
  if pieces.take header.length = header then readTuples [] (pieces.drop header.length) else none

example : (lex "'1', 'it''s'),('2', '\\\\');".toList).bind (readTuples []) = some [["1", "it's"], ["2", "\\"]] := by
  decide

/-! ## Tuples, piece by piece -/

/-- A tuple after its parenthesis, and what follows it. -/
def tuplePieces (rest : List Piece) : List String → List Piece
  | [] => .code ')' :: rest
  | [v] => .literal v.toList :: .code ')' :: rest
  | v :: w :: row => .literal v.toList :: .code ',' :: .code ' ' :: tuplePieces rest (w :: row)

def tuplesPieces : List (List String) → List Piece
  | [] => [.code ';']
  | [row] => .code '(' :: tuplePieces [.code ';'] row
  | row :: row' :: rows => .code '(' :: tuplePieces (.code ',' :: tuplesPieces (row' :: rows)) row

section Pieces

variable {row values : List String} {rest : List Piece} {rows : List (List String)} {chat : Chat}

theorem print_tuplePieces (rest : List Piece) (row : List String) :
    print (tuplePieces rest row) =
      (", ".intercalate (row.map fun l => "'" ++ l ++ "'")).toList ++ ')' :: print rest := by
  induction row using tuplePieces.induct with
  | case1 => simp [tuplePieces, print_cons, Piece.text]
  | case2 v => simp [tuplePieces, print_cons, Piece.text]
  | case3 v w row ih =>
    rw [tuplePieces, print_cons, print_cons, print_cons, ih]
    simp [Piece.text]

theorem print_tuplesPieces (rows : List (List String)) :
    print (tuplesPieces rows) = (",".intercalate (rows.map tuple)).toList ++ [';'] := by
  induction rows using tuplesPieces.induct with
  | case1 => rfl
  | case2 row =>
    rw [tuplesPieces, print_cons, print_tuplePieces]
    simp [tuple, Piece.text, print]
  | case3 row row' rows ih =>
    rw [tuplesPieces, print_cons, print_tuplePieces, print_cons, ih]
    simp [tuple, Piece.text]

theorem separated_tuplePieces (hrest : Separated rest) (row : List String) : Separated (tuplePieces rest row) := by
  induction row using tuplePieces.induct with
  | case1 => exact ⟨by decide, hrest⟩
  | case2 v => exact ⟨by simp [Piece.IsLiteral], by decide, hrest⟩
  | case3 v w row ih => exact ⟨by simp [Piece.IsLiteral], by decide, by decide, ih⟩

theorem separated_tuplesPieces (rows : List (List String)) : Separated (tuplesPieces rows) := by
  have hend : Separated [.code ';'] := by simp [Separated]
  induction rows using tuplesPieces.induct with
  | case1 => exact hend
  | case2 row => exact ⟨by decide, separated_tuplePieces hend row⟩
  | case3 row row' rows ih => exact ⟨by decide, @separated_tuplePieces (.code ',' :: _) ⟨by decide, ih⟩ row⟩

/-- A stored row has the values of its literals. -/
theorem read_of_storedRow (h : storedRow row = some values) :
    List.Forall₂ (fun l v : String => readSQLString l.toList = some v.toList) row values := by
  rw [storedRow, mapM_eq_some_iff, ← List.forall₂_eq_eq_eq, List.forall₂_map_left_iff,
    List.forall₂_map_right_iff] at h
  refine h.imp fun l v hv => ?_
  obtain ⟨value, hvalue, rfl⟩ := Option.map_eq_some_iff.1 hv
  rw [hvalue, String.toList_ofList]

theorem reads_tuplePieces {rest' : List Piece} (hrow : storedRow row = some values)
    (hrest : List.Forall₂ Piece.Reads rest rest') :
    List.Forall₂ Piece.Reads (tuplePieces rest row) (tuplePieces rest' values) := by
  have hread := read_of_storedRow hrow
  clear hrow
  induction row using tuplePieces.induct generalizing values with
  | case1 =>
    cases hread
    exact .cons (.code ')') hrest
  | case2 v =>
    obtain _ | ⟨hv, ⟨⟩⟩ := hread
    exact .cons (.literal hv) (.cons (.code ')') hrest)
  | case3 v w row ih =>
    obtain _ | ⟨hv, hrow⟩ := hread
    have htail := ih hrow
    obtain _ | ⟨hw, hrow⟩ := hrow
    exact .cons (.literal hv) (.cons (.code ',') (.cons (.code ' ') htail))

theorem reads_tuplesPieces {stored : List (List String)} (h : rows.map storedRow = stored.map some) :
    List.Forall₂ Piece.Reads (tuplesPieces rows) (tuplesPieces stored) := by
  have hend : List.Forall₂ Piece.Reads [.code ';'] [.code ';'] := .cons (.code ';') .nil
  rw [← List.forall₂_eq_eq_eq, List.forall₂_map_left_iff, List.forall₂_map_right_iff] at h
  induction rows using tuplesPieces.induct generalizing stored with
  | case1 =>
    cases h
    exact hend
  | case2 row =>
    rcases h with _ | ⟨hrow, hnil⟩
    cases hnil
    exact .cons (.code '(') (reads_tuplePieces hrow hend)
  | case3 row row' rows ih =>
    rcases h with _ | ⟨hrow, hrows⟩
    have htail := ih hrows
    rcases hrows with _ | ⟨hrow', hrows⟩
    exact .cons (.code '(') (reads_tuplePieces hrow (.cons (.code ',') htail))

/-- Read with the first values `row₀`, a tuple that is not empty has the others after them. -/
theorem readTuples_last (row₀ : List String) (hrow : row ≠ []) :
    readTuples row₀ (tuplePieces [.code ';'] row) = some [row₀ ++ row] := by
  induction row using tuplePieces.induct generalizing row₀ with
  | case1 => exact absurd rfl hrow
  | case2 v => simp [tuplePieces, readTuples]
  | case3 v w row ih =>
    rw [tuplePieces, readTuples, ih _ (by simp)]
    simp

theorem readTuples_next (row₀ : List String) (rest : List Piece) (hrow : row ≠ []) :
    readTuples row₀ (tuplePieces (.code ',' :: .code '(' :: rest) row) =
      (readTuples [] rest).map ((row₀ ++ row) :: ·) := by
  induction row using tuplePieces.induct generalizing row₀ with
  | case1 => exact absurd rfl hrow
  | case2 v => simp [tuplePieces, readTuples]
  | case3 v w row ih =>
    rw [tuplePieces, readTuples, ih _ (by simp)]
    simp

theorem tuplesPieces_cons (row : List String) (rows : List (List String)) :
    ∃ rest, tuplesPieces (row :: rows) = .code '(' :: rest := by
  cases rows with
  | nil => exact ⟨_, rfl⟩
  | cons row' rows => exact ⟨_, rfl⟩

theorem readTuples_tuplesPieces (hrows : ∀ row ∈ rows, row ≠ []) (hne : rows ≠ []) :
    readTuples [] (tuplesPieces rows).tail = some rows := by
  induction rows using tuplesPieces.induct with
  | case1 => exact absurd rfl hne
  | case2 row => exact readTuples_last [] (hrows row (by simp))
  | case3 row row' rows ih =>
    obtain ⟨hrow, hrows⟩ := List.forall_mem_cons.1 hrows
    have hread := ih hrows (by simp)
    obtain ⟨rest, hrest⟩ := tuplesPieces_cons row' rows
    rw [hrest, List.tail_cons] at hread
    rw [tuplesPieces, hrest, List.tail_cons, readTuples_next _ _ hrow, hread]
    rfl

theorem text_insertHistory (chat : Chat) (rows : List (List String)) :
    (Stmt.insertHistory chat rows).text.toList = chat.header.toList ++ print (tuplesPieces rows) := by
  have htext : (Stmt.insertHistory chat rows).text = chat.header ++ ",".intercalate (rows.map tuple) ++ ";" := by
    cases chat <;> rfl
  rw [htext, print_tuplesPieces, String.toList_append, String.toList_append, List.append_assoc]
  rfl

theorem quote_notMem_header (chat : Chat) : '\'' ∉ chat.header.toList := by
  cases chat <;> decide +kernel

/-- **An `INSERT` is read as the rows that its literals stand for.** -/
theorem readInsert_text {stored : List (List String)} (h : rows.map storedRow = stored.map some)
    (hstored : ∀ values ∈ stored, values ≠ []) (hne : stored ≠ []) :
    readInsert chat (Stmt.insertHistory chat rows).text = some stored := by
  obtain ⟨rest, hrest⟩ : ∃ rest, tuplesPieces stored = .code '(' :: rest := by
    obtain ⟨values, stored, rfl⟩ := List.exists_cons_of_ne_nil hne
    exact tuplesPieces_cons values stored
  have hlex : lex (Stmt.insertHistory chat rows).text.toList =
      some ((chat.header ++ "(").toList.map .code ++ (tuplesPieces stored).tail) := by
    rw [text_insertHistory, lex, lexFrom_codes (quote_notMem_header chat), ← lex,
      lex_print (separated_tuplesPieces rows) (reads_tuplesPieces h), hrest]
    simp
  rw [readInsert, hlex]
  simp only [Option.bind_eq_bind, Option.bind_some, List.take_left', List.drop_left', List.length_map]
  exact readTuples_tuplesPieces hstored hne

end Pieces

/-! ## Cached records -/

/-- A cached record as the flush reads it, four texts, whoever has written it. -/
structure CachedRecord where
  id₁ : String
  id₂ : String
  message : String
  timestamp : String

namespace CachedRecord

def json : Chat → CachedRecord → Json
  | .privateChat, r => .obj [("message", .str r.message), ("receiver_id", .str r.id₂), ("sender_id", .str r.id₁),
      ("timestamp", .str r.timestamp)]
  | .groupChat, r => .obj [("group_id", .str r.id₁), ("message", .str r.message), ("sender_id", .str r.id₂),
      ("timestamp", .str r.timestamp)]

/-- The values, in the order of the columns. -/
def values (r : CachedRecord) : List String := [r.id₁, r.id₂, r.message, r.timestamp]

/-- What stands between the quotes in the row of a record: only the message is escaped. -/
def literals (r : CachedRecord) : List String :=
  [r.id₁, r.id₂, String.ofList (escapeSQLString r.message.toList), r.timestamp]

/-- What is not escaped has neither quotes nor backslashes. -/
structure Plain (r : CachedRecord) : Prop where
  id₁ : ∀ c ∈ r.id₁.toList, History.Plain c
  id₂ : ∀ c ∈ r.id₂.toList, History.Plain c
  timestamp : ∀ c ∈ r.timestamp.toList, History.Plain c

theorem literals_json (chat : Chat) (r : CachedRecord) : History.literals chat (r.json chat) = .ok r.literals := by
  cases chat <;> rfl

theorem storedRow_literals {r : CachedRecord} (hr : r.Plain) : storedRow r.literals = some r.values := by
  simp only [storedRow, literals, List.mapM_cons, List.mapM_nil, readSQLString_plain hr.id₁,
    readSQLString_plain hr.id₂, readSQLString_plain hr.timestamp, String.toList_ofList,
    readSQLString_escapeSQLString, Option.map_some, String.ofList_toList]
  rfl

end CachedRecord

/-! ## The statements of a flush -/

/-- Redis answers with the list, and every statement succeeds. -/
def working (cachedMessages : List Bytes) : (c : Database.Cmd) → Unit → Ans c × Unit
  | .getConnection, _ => (0, ())
  | .releaseConnection _, _ => ((), ())
  | .update _ _, _ => (true, ())
  | .query _ _ _, _ => (none, ())
  | .insertId _, _ => (0, ())
  | .lrange _ _ _, _ => (cachedMessages, ())
  | .ltrim _ _ _, _ => ((), ())

/-- The text of an `INSERT` that is sent. -/
def insertText : Database.Cmd → Option String
  | .update _ (.insertHistory chat rows) => some (Stmt.insertHistory chat rows).text
  | _ => none

/-- The `INSERT`s that the flush of a list sends. -/
def insertTexts (lib : JsonLib) (chat : Chat) (cachedMessages : List Bytes) : List String :=
  ((flushChatCache lib chat).trace (working cachedMessages) ()).filterMap insertText

section Flush

variable {lib : JsonLib} {chat : Chat}

theorem trace_insertBatches (cachedMessages : List Bytes) (mysql : Connection) {bs : List (List Bytes)}
    {rows : List (List (List String))}
    (h : List.Forall₂ (fun batch rows => readBatch lib chat batch = .ok rows) bs rows)
    (next : Bool → DbTask Unit) :
    ((insertBatches lib chat mysql bs >>= next).trace (working cachedMessages) ()).filterMap insertText =
      rows.map (fun rows => (Stmt.insertHistory chat rows).text) ++
        ((next true).trace (working cachedMessages) ()).filterMap insertText := by
  induction h with
  | nil => rfl
  | cons hbatch hrest ih =>
    rw [List.map_cons, List.cons_append, ← ih, insertBatches, hbatch]
    rfl

theorem insertTexts_eq {cachedMessages : List Bytes} {rows : List (List (List String))}
    (h : List.Forall₂ (fun batch rows => readBatch lib chat batch = .ok rows) (batches cachedMessages) rows) :
    insertTexts lib chat cachedMessages = rows.map fun rows => (Stmt.insertHistory chat rows).text := by
  by_cases hnil : cachedMessages = []
  · subst hnil
    cases h
    rfl
  · have hisEmpty : cachedMessages.isEmpty = false := by simpa using hnil
    have hflush : insertTexts lib chat cachedMessages =
        ((insertBatches lib chat 0 (batches cachedMessages) >>= fun inserted => do
          let _ ← perform (.update 0 (if inserted then .commit else .rollback))
          perform (.releaseConnection 0)).trace (working cachedMessages) ()).filterMap insertText := by
      simp only [insertTexts, flushChatCache, withConnection, Program.trace, perform, Program.perform,
        Program.call_bind, Program.ret_bind, working, hisEmpty, Bool.false_eq_true, if_false, Program.bind_assoc']
      rfl
    rw [hflush, trace_insertBatches cachedMessages 0 h]
    exact List.append_nil _

theorem readRow_json {message : Bytes} {r : CachedRecord} (hparse : lib.parse message = .ok (r.json chat)) :
    readRow lib chat message = .ok (some r.literals) := by
  have hparsed : parseRecord lib chat message = .ok (some (r.json chat)) := by
    cases chat <;> simp [parseRecord, hparse]
  simp [readRow, hparsed, CachedRecord.literals_json, bind, Except.bind, pure, Except.pure]

/-- A batch of records becomes rows that stand for them. -/
theorem readBatch_json {batch : List Bytes} {records : List CachedRecord}
    (h : List.Forall₂ (fun message r => r.Plain ∧ lib.parse message = .ok (r.json chat)) batch records) :
    ∃ rows, readBatch lib chat batch = .ok rows ∧ rows.map storedRow = (records.map CachedRecord.values).map some := by
  have hread : ∃ rows : List (List String),
      List.Forall₂ (fun message row => readRow lib chat message = .ok row) batch (rows.map some) ∧
      rows.map storedRow = (records.map CachedRecord.values).map some := by
    induction h with
    | nil => exact ⟨[], .nil, rfl⟩
    | cons hparse _ ih =>
      obtain ⟨rows, hread, hstored⟩ := ih
      refine ⟨_ :: rows, .cons (readRow_json hparse.2) hread, ?_⟩
      rw [List.map_cons, List.map_cons, List.map_cons, CachedRecord.storedRow_literals hparse.1, hstored]
  obtain ⟨rows, hread, hstored⟩ := hread
  refine ⟨rows, readBatch_eq_ok.2 ⟨_, hread, ?_⟩, hstored⟩
  simp [List.reduceOption, List.filterMap_map]

theorem forall₂_batches {α β : Type*} {R : α → β → Prop} {l : List α} {l' : List β} (h : List.Forall₂ R l l') :
    List.Forall₂ (List.Forall₂ R) (batches l) (batches l') := by
  rw [batches, batches, h.length_eq, List.forall₂_map_left_iff, List.forall₂_map_right_iff, List.forall₂_same]
  intro k _
  exact List.forall₂_take _ (List.forall₂_drop _ h)

theorem length_batch {α : Type*} {messages batch : List α} (h : batch ∈ batches messages) :
    1 ≤ batch.length ∧ batch.length ≤ 100 := by
  refine ⟨List.length_pos_iff.2 (batches_ne_nil h), ?_⟩
  obtain ⟨k, -, rfl⟩ := List.mem_map.1 h
  exact List.length_take_le _ _

/-- Batches of records become statements that are read as their values. -/
theorem readBatches_json {bs : List (List Bytes)} {records : List (List CachedRecord)}
    (h : List.Forall₂ (List.Forall₂ fun message r => r.Plain ∧ lib.parse message = .ok (r.json chat)) bs records)
    (hne : ∀ batch ∈ records, batch ≠ []) :
    ∃ rows, List.Forall₂ (fun batch rows => readBatch lib chat batch = .ok rows) bs rows ∧
      rows.map (fun rows => readInsert chat (Stmt.insertHistory chat rows).text) =
        (records.map fun batch => batch.map CachedRecord.values).map some := by
  induction h with
  | nil => exact ⟨[], .nil, rfl⟩
  | @cons _ batch _ _ hbatch _ ih =>
    rw [List.forall_mem_cons] at hne
    obtain ⟨rows, hrows, hstored⟩ := readBatch_json hbatch
    obtain ⟨rest, hrest, hread⟩ := ih hne.2
    refine ⟨rows :: rest, .cons hrows hrest, ?_⟩
    rw [List.map_cons, List.map_cons, List.map_cons, hread, readInsert_text hstored ?_ (by simpa using hne.1)]
    intro values hmem
    obtain ⟨r, -, rfl⟩ := List.mem_map.1 hmem
    exact List.cons_ne_nil _ _

variable (lib chat) in
/-- The statements of a flush stand for exactly these records: the tuples that MySQL reads, one statement after the
other, are their values, and a statement has 1 to 100 tuples. -/
def Denotes (cachedMessages : List Bytes) (records : List CachedRecord) : Prop :=
  ∃ tuples : List (List (List String)),
    (insertTexts lib chat cachedMessages).map (readInsert chat) = tuples.map some ∧
      tuples.flatten = records.map CachedRecord.values ∧
      ∀ statement ∈ tuples, 1 ≤ statement.length ∧ statement.length ≤ 100

/-- **The statements of a flush stand for exactly the records of the list**, whose ids and times have neither quotes
nor backslashes. -/
theorem flush_statements (lib : JsonLib) (chat : Chat) (records : List CachedRecord) (cachedMessages : List Bytes)
    (hplain : ∀ r ∈ records, r.Plain)
    (hparse : List.Forall₂ (fun message r => lib.parse message = .ok (r.json chat)) cachedMessages records) :
    Denotes lib chat cachedMessages records := by
  have hread : List.Forall₂ (fun message r => r.Plain ∧ lib.parse message = .ok (r.json chat)) cachedMessages
      records := ((List.forall₂_and_left _ _).2 ⟨hplain, hparse.flip⟩).flip
  refine ⟨(batches records).map fun batch => batch.map CachedRecord.values, ?_, ?_, ?_⟩
  · obtain ⟨rows, hrows, hread⟩ := readBatches_json (forall₂_batches hread) fun batch => batches_ne_nil
    rw [insertTexts_eq hrows, List.map_map]
    exact hread
  · rw [← List.map_flatten, flatten_batches]
  · intro statement hmem
    obtain ⟨batch, hbatch, rfl⟩ := List.mem_map.1 hmem
    rw [List.length_map]
    exact length_batch hbatch

end Flush

/-- A record with quotes and backslashes in its message, and one with a plain message. -/
def quoted : CachedRecord := ⟨"3", "4", "it's \\'", "2024-08-12 10:00:00"⟩

def greeting : CachedRecord := ⟨"-1", "3", "hi", "2024-08-12 10:00:00"⟩

/-- Three statements. -/
theorem flush_statements_sample :
    let lib : JsonLib := .ofList [quoted.json .privateChat, greeting.json .privateChat]
    let records := List.replicate 101 quoted ++ List.replicate 100 greeting
    Denotes lib .privateChat (records.map fun r => (r.json .privateChat).dump) records := by
  intro lib records
  have hmem : ∀ r ∈ records, r = quoted ∨ r = greeting := by
    intro r hr
    rcases List.mem_append.1 hr with hr | hr
    · exact .inl (List.eq_of_mem_replicate hr)
    · exact .inr (List.eq_of_mem_replicate hr)
  refine flush_statements lib .privateChat records _ (fun r hr => ?_) ?_
  · rcases hmem r hr with rfl | rfl
    · exact ⟨by simp [quoted, History.Plain], by simp [quoted, History.Plain], plain_morning⟩
    · exact ⟨by simp [greeting, History.Plain], by simp [greeting, History.Plain], plain_morning⟩
  · refine List.forall₂_map_left_iff.2 (List.forall₂_same.2 fun r hr => ?_)
    have hne : (quoted.json .privateChat).dump ≠ (greeting.json .privateChat).dump := by decide
    rcases hmem r hr with rfl | rfl
    · simp [lib, JsonLib.ofList]
    · simp [lib, JsonLib.ofList, hne]

/-- A time that is a backslash: the quote after it does not end the literal, and the statement does not lex. -/
theorem backslash_timestamp :
    let r : CachedRecord := ⟨"3", "4", "hi", "\\"⟩
    '\'' ∉ r.timestamp.toList ∧
      ¬ Denotes (.ofList [r.json .privateChat]) .privateChat [(r.json .privateChat).dump] [r] := by
  intro r
  refine ⟨by decide, ?_⟩
  rintro ⟨tuples, htuples, -⟩
  have htexts : insertTexts (.ofList [r.json .privateChat]) .privateChat [(r.json .privateChat).dump] =
      [[r.literals]].map fun rows => (Stmt.insertHistory .privateChat rows).text := by
    have hread : readBatch (.ofList [r.json .privateChat]) .privateChat [(r.json .privateChat).dump] =
        .ok [r.literals] :=
      readBatch_eq_ok.2 ⟨[some r.literals], .cons (readRow_json (by simp [JsonLib.ofList])) .nil, rfl⟩
    have hbatches : ∀ message : Bytes, batches [message] = [[message]] := by simp [batches, batchSize]
    refine insertTexts_eq ?_
    rw [hbatches]
    exact .cons hread .nil
  have hlex : lex (Stmt.insertHistory .privateChat [r.literals]).text.toList = none := by
    have hrest : lexFrom none (print (tuplesPieces [r.literals])) = none := by decide
    rw [text_insertHistory, lex, lexFrom_codes (quote_notMem_header _), hrest]
    rfl
  rw [htexts, List.map_singleton, List.map_singleton, readInsert, hlex] at htuples
  cases tuples <;> simp at htuples

end Chatroom.History
