import Mathlib.Data.List.Forall2
import Mathlib.Data.List.Perm.Subperm
import Mathlib.Data.List.ReduceOption
import Chatroom.History.Flush

/-!
# A flush whose statements fail

The flush of one list, alone with Redis and MySQL, when any of its statements may fail. A statement that fails changes
nothing. Outside a transaction, which is where the statements are when `START TRANSACTION` fails, every `INSERT` is
committed by itself.

The flush clears the list first: its records are kept when all of them are inserted and committed, and never
otherwise (`kept_iff`).
-/

namespace Chatroom.History

open Lib Database

/-! ## What the statements do -/

/-- A string as `element->str` gives it, up to its first NUL. -/
def cString (s : Bytes) : Bytes := s.takeWhile (· ≠ 0)

/-- The rows that MySQL stores for an `INSERT`. The statement is passed as a C string, so a NUL ends it inside a
literal; without rows it is no statement. -/
def insertedRows (rows : List (List String)) : Option (List (List String)) :=
  if rows = [] ∨ ∃ literals ∈ rows, ∃ l ∈ literals, '\x00' ∈ l.toList then none else rows.mapM storedRow

structure Store where
  /-- `m_pool` -/
  pool : List Connection
  redis : String → List Bytes
  /-- the committed rows -/
  table : Chat → List (List String)
  /-- the rows of the transaction that is open on a connection -/
  transaction : Connection → Option (List (Chat × List String))
  /-- the statements that were sent -/
  sent : ℕ

namespace Store

/-- Before the flush, no transaction is open. -/
def idle (pool : List Connection) (redis : String → List Bytes) (table : Chat → List (List String)) : Store :=
  ⟨pool, redis, table, fun _ => none, 0⟩

def commitRows (s : Store) (rows : List (Chat × List String)) : Store :=
  { s with table := fun chat => s.table chat ++ (rows.filter fun r => r.1 = chat).map Prod.snd }

/-- The open transaction of the connection becomes permanent. -/
def commit (s : Store) (mysql : Connection) : Store := s.commitRows ((s.transaction mysql).getD [])

def setTransaction (s : Store) (mysql : Connection) (rows : Option (List (Chat × List String))) : Store :=
  { s with transaction := Function.update s.transaction mysql rows }

/-- Rows that were inserted wait for the `COMMIT` of an open transaction. -/
def insert (s : Store) (mysql : Connection) (rows : List (Chat × List String)) : Store :=
  match s.transaction mysql with
  | some open_ => s.setTransaction mysql (some (open_ ++ rows))
  | none => s.commitRows rows

/-- A statement that succeeds; none if MySQL refuses it. `START TRANSACTION` commits what is open. The flush sends no
formatted statement. -/
def apply (s : Store) (mysql : Connection) : Stmt → Option Store
  | .startTransaction => some ((s.commit mysql).setTransaction mysql (some []))
  | .commit => some ((s.commit mysql).setTransaction mysql none)
  | .rollback => some (s.setTransaction mysql none)
  | .insertHistory chat rows => (insertedRows rows).map fun rows => s.insert mysql (rows.map (chat, ·))
  | .formatted _ _ => none

end Store

/-- The commands, where `fails k` says whether the statement `k` fails. -/
def exec (fails : ℕ → Bool) : (c : Database.Cmd) → Store → Option (Database.Ans c × Store)
  | .getConnection, s =>
    match s.pool with
    | [] => none
    | mysql :: pool => some (mysql, { s with pool })
  | .releaseConnection mysql, s => some ((), { s with pool := s.pool ++ [mysql] })
  | .update mysql sql, s =>
    match if fails s.sent then none else s.apply mysql sql with
    | some t => some (true, { t with sent := s.sent + 1 })
    | none => some (false, { s with sent := s.sent + 1 })
  | .query _ _ _, s => some (none, { s with sent := s.sent + 1 })
  | .insertId _, s => some (0, s)
  | .lrange key start stop, s => some ((History.lrange (s.redis key) start stop).map cString, s)
  | .ltrim key start stop, s =>
    some ((), { s with redis := Function.update s.redis key (History.ltrim (s.redis key) start stop) })

/-! ## What is kept -/

variable (lib : JsonLib) (chat : Chat)

/-- The row that a string read from the list stands for, none if it is no record. -/
def recordRow (record : Bytes) : Option (List String) :=
  match readRow lib chat record with
  | .ok (some literals) => storedRow literals
  | _ => none

/-- The rows that a list stands for. -/
def recordRows (records : List Bytes) : List (Option (List String)) := (records.map cString).map (recordRow lib chat)

/-- Every record that was in the list is in its table now, or still in the list. -/
def Kept (s t : Store) : Prop :=
  ∃ committed, t.table chat = s.table chat ++ committed ∧
    (recordRows lib chat (s.redis chat.key)).Subperm
      (committed.map some ++ recordRows lib chat (t.redis chat.key))

/-- The string is a record, and MySQL stores its row. -/
def Storable (record : Bytes) : Prop :=
  ∃ literals row, readRow lib chat record = .ok (some literals) ∧ storedRow literals = some row ∧
    ∀ l ∈ literals, '\x00' ∉ l.toList

/-! ## One batch -/

variable {lib chat}

theorem mapM_eq_some_iff {α β : Type} {f : α → Option β} {l : List α} {l' : List β} :
    l.mapM f = some l' ↔ l.map f = l'.map some := by
  induction l generalizing l' with
  | nil => cases l' <;> simp
  | cons a l ih =>
    rw [List.mapM_cons, List.map_cons]
    cases l' with
    | nil => simp [Option.bind_eq_some_iff]
    | cons b l' => simp [← ih, Option.bind_eq_some_iff]

theorem insertedRows_eq_some {rows inserted : List (List String)} : insertedRows rows = some inserted ↔
    rows ≠ [] ∧ (∀ literals ∈ rows, ∀ l ∈ literals, '\x00' ∉ l.toList) ∧
      rows.map storedRow = inserted.map some := by
  rw [insertedRows, ← mapM_eq_some_iff]
  split
  case isTrue h =>
    refine ⟨nofun, ?_⟩
    rintro ⟨hne, hnul, -⟩
    rcases h with h | ⟨literals, hmem, l, hl, h⟩
    · exact absurd h hne
    · exact absurd h (hnul literals hmem l hl)
  case isFalse h =>
    obtain ⟨hne, hnul⟩ := not_or.1 h
    exact ⟨fun heq => ⟨hne, fun literals hmem l hl h => hnul ⟨literals, hmem, l, hl, h⟩, heq⟩, fun h => h.2.2⟩

/-- A batch of records is inserted as their rows. -/
theorem insertedRows_of_storable {batch : List Bytes} (hne : batch ≠ [])
    (h : ∀ record ∈ batch, Storable lib chat record) :
    ∃ rows inserted, readBatch lib chat batch = .ok rows ∧ insertedRows rows = some inserted ∧
      inserted.map some = batch.map (recordRow lib chat) := by
  have hread : ∃ rows inserted : List (List String),
      List.Forall₂ (fun record row => readRow lib chat record = .ok row) batch (rows.map some) ∧
      (∀ literals ∈ rows, ∀ l ∈ literals, '\x00' ∉ l.toList) ∧
      rows.map storedRow = inserted.map some ∧ inserted.map some = batch.map (recordRow lib chat) := by
    clear hne
    induction batch with
    | nil => exact ⟨[], [], .nil, by simp, rfl, rfl⟩
    | cons record batch ih =>
      rw [List.forall_mem_cons] at h
      obtain ⟨⟨literals, row, hrow, hstored, hnul⟩, hbatch⟩ := h
      obtain ⟨rows, inserted, hread, hnuls, hmap, hrows⟩ := ih hbatch
      refine ⟨literals :: rows, row :: inserted, .cons hrow hread, List.forall_mem_cons.2 ⟨hnul, hnuls⟩, ?_, ?_⟩
      · rw [List.map_cons, List.map_cons, hstored, hmap]
      · rw [List.map_cons, List.map_cons, hrows, recordRow, hrow, ← hstored]
  obtain ⟨rows, inserted, hread, hnuls, hmap, hrows⟩ := hread
  refine ⟨rows, inserted, readBatch_eq_ok.2 ⟨_, hread, ?_⟩, insertedRows_eq_some.2 ⟨?_, hnuls, hmap⟩, hrows⟩
  · simp [List.reduceOption, List.filterMap_map]
  · rintro rfl
    exact hne (List.length_eq_zero_iff.1 (by simpa using hread.length_eq))

/-- Where as many rows are inserted as there are strings in the batch, each of them is a record. -/
theorem length_insertedRows {batch : List Bytes} {rows inserted : List (List String)}
    (hrows : readBatch lib chat batch = .ok rows) (hinserted : insertedRows rows = some inserted) :
    inserted.length ≤ batch.length ∧
      (inserted.length = batch.length → ∀ record ∈ batch, Storable lib chat record) := by
  obtain ⟨read, hread, rfl⟩ := readBatch_eq_ok.1 hrows
  obtain ⟨-, hnul, hmap⟩ := insertedRows_eq_some.1 hinserted
  have hlength : inserted.length = read.reduceOption.length := by simpa using (congrArg List.length hmap).symm
  rw [hlength, hread.length_eq]
  refine ⟨List.reduceOption_length_le read, fun heq record hmem => ?_⟩
  rw [List.reduceOption_length_eq_iff] at heq
  obtain ⟨i, hi, rfl⟩ := List.getElem_of_mem hmem
  have hi' : i < read.length := hread.length_eq ▸ hi
  have hrow := hread.get hi hi'
  obtain ⟨literals, hliterals⟩ := Option.isSome_iff_exists.1 (heq read[i] (List.getElem_mem hi'))
  have hmem' : literals ∈ read.reduceOption := List.reduceOption_mem_iff.2 (hliterals ▸ List.getElem_mem hi')
  have hstored : storedRow literals ∈ inserted.map some := hmap ▸ List.mem_map_of_mem hmem'
  obtain ⟨row, -, hrow'⟩ := List.mem_map.1 hstored
  refine ⟨literals, row, ?_, hrow'.symm, hnul literals hmem'⟩
  rw [← hliterals]
  exact hrow

/-! ## All batches -/

namespace Store

variable {s : Store} {mysql : Connection} {chat : Chat}

theorem insert_nil : s.insert mysql [] = s := by
  unfold insert
  cases hopen : s.transaction mysql with
  | none => simp [commitRows]
  | some rows => simp [setTransaction, ← hopen]

theorem insert_insert (rows rows' : List (Chat × List String)) (n n' : ℕ) :
    { Store.insert { s.insert mysql rows with sent := n } mysql rows' with sent := n' } =
      { s.insert mysql (rows ++ rows') with sent := n' } := by
  unfold insert
  cases hopen : s.transaction mysql with
  | none => simp [commitRows, hopen]
  | some rows₀ => simp [setTransaction]

theorem table_commit (rows : List (List String)) (h : s.transaction mysql = some (rows.map (chat, ·))) :
    (s.commit mysql).table chat = s.table chat ++ rows := by
  simp [commit, h, commitRows, List.filter_map, Function.comp_def]

end Store

section Batches

variable {fails : ℕ → Bool} {mysql : Connection}

variable (lib chat fails) in
/-- No `INSERT` of the batches fails, where the first is the statement `n`, and each string is a record. -/
def AllInserted (n : ℕ) (bs : List (List Bytes)) : Prop :=
  (∀ k < bs.length, fails (n + k) = false) ∧ ∀ record ∈ bs.flatten, Storable lib chat record

theorem allInserted_cons {n : ℕ} {batch : List Bytes} {rest : List (List Bytes)} :
    AllInserted lib chat fails n (batch :: rest) ↔ (fails n = false ∧ ∀ record ∈ batch, Storable lib chat record) ∧
      AllInserted lib chat fails (n + 1) rest := by
  simp only [AllInserted, List.length_cons, Nat.forall_lt_succ_left, Nat.add_zero, List.flatten_cons,
    List.forall_mem_append, Nat.add_assoc, Nat.add_comm 1]
  tauto

variable (lib chat) in
/-- Rows are inserted until a record throws or a statement fails; all of them if nothing of that happens, fewer than
there are records otherwise. -/
theorem eval_insertBatches (fails : ℕ → Bool) (mysql : Connection) {bs : List (List Bytes)}
    (hne : ∀ batch ∈ bs, batch ≠ []) (s : Store) :
    ∃ (r : Except Exn Bool) (rows : List (List String)) (n : ℕ), (insertBatches lib chat mysql bs).eval (exec fails) s =
        some (r, { s.insert mysql (rows.map (chat, ·)) with sent := n }) ∧
      ((AllInserted lib chat fails s.sent bs ∧ r = .ok true ∧ n = s.sent + bs.length ∧
          rows.map some = bs.flatten.map (recordRow lib chat)) ∨
        (¬ AllInserted lib chat fails s.sent bs ∧ rows.length < bs.flatten.length)) := by
  induction bs generalizing s with
  | nil =>
    refine ⟨.ok true, [], s.sent, ?_, .inl ⟨⟨by simp, by simp⟩, rfl, rfl, rfl⟩⟩
    rw [List.map_nil, Store.insert_nil]
    rfl
  | cons batch rest ih =>
    rw [List.forall_mem_cons] at hne
    have hpos : 0 < (batch :: rest).flatten.length := by
      rw [List.flatten_cons, List.length_append]
      exact Nat.add_pos_left (List.length_pos_of_ne_nil hne.1) _
    have hnothing : s = { s.insert mysql (List.map (chat, ·) []) with sent := s.sent } := by
      rw [List.map_nil, Store.insert_nil]
    rw [allInserted_cons]
    simp only [insertBatches, Program.eval_bind]
    cases hrows : readBatch lib chat batch with
    | error e =>
      refine ⟨.error e, [], s.sent, by rw [← hnothing]; rfl, .inr ⟨?_, hpos⟩⟩
      rintro ⟨⟨-, hall⟩, -⟩
      obtain ⟨rows, -, hrows', -⟩ := insertedRows_of_storable hne.1 hall
      cases hrows.symm.trans hrows'
    | ok rows =>
      simp only [Program.ofExcept, Program.eval_ret, Option.bind_some, Program.eval_perform, exec, Store.apply]
      cases hdone : (if fails s.sent then none else (insertedRows rows).map fun rows =>
          s.insert mysql (rows.map (chat, ·))) with
      | none =>
        refine ⟨.ok false, [], s.sent + 1, by rw [List.map_nil, Store.insert_nil]; rfl, .inr ⟨?_, hpos⟩⟩
        rintro ⟨⟨hzero, hall⟩, -⟩
        obtain ⟨rows', inserted, hrows', hinserted, -⟩ := insertedRows_of_storable hne.1 hall
        obtain rfl := Except.ok.inj (hrows.symm.trans hrows')
        simp [hzero, hinserted] at hdone
      | some t =>
        obtain ⟨hzero, inserted, hinserted, rfl⟩ : fails s.sent = false ∧
            ∃ inserted, insertedRows rows = some inserted ∧ s.insert mysql (inserted.map (chat, ·)) = t := by
          simpa using hdone
        obtain ⟨hle, hstorable⟩ := length_insertedRows hrows hinserted
        obtain ⟨r, rows', n, heval, hcases⟩ :=
          ih hne.2 { s.insert mysql (inserted.map (chat, ·)) with sent := s.sent + 1 }
        refine ⟨r, inserted ++ rows', n, ?_, ?_⟩
        · rw [List.map_append, ← Store.insert_insert _ _ (s.sent + 1), ← heval]
          rfl
        · rw [List.flatten_cons, List.length_append, List.length_append, List.map_append, List.map_append]
          rcases hcases with ⟨hrest, hr, hn, hrows'⟩ | ⟨hrest, hlt⟩
          · by_cases hbatch : ∀ record ∈ batch, Storable lib chat record
            · refine .inl ⟨⟨⟨hzero, hbatch⟩, hrest⟩, hr, ?_, ?_⟩
              · rw [hn, List.length_cons]
                exact Nat.add_right_comm s.sent 1 rest.length
              · obtain ⟨rows₁, inserted₁, hrows₁, hinserted₁, hmap⟩ := insertedRows_of_storable hne.1 hbatch
                obtain rfl := Except.ok.inj (hrows.symm.trans hrows₁)
                obtain rfl := Option.some.inj (hinserted.symm.trans hinserted₁)
                rw [hmap, hrows']
            · refine .inr ⟨fun h => hbatch h.1.2, ?_⟩
              have hlt : inserted.length < batch.length := lt_of_le_of_ne hle fun heq => hbatch (hstorable heq)
              have hlength := congrArg List.length hrows'
              simp only [List.length_map] at hlength
              omega
          · exact .inr ⟨fun h => hrest h.2, Nat.add_lt_add_of_le_of_lt hle hlt⟩

end Batches

/-! ## The flush -/

theorem batches_ne_nil {α : Type*} {messages batch : List α} (h : batch ∈ batches messages) : batch ≠ [] := by
  obtain ⟨k, hk, rfl⟩ := List.mem_map.1 h
  rw [List.mem_range] at hk
  have hlt : k * batchSize < messages.length := by
    simp only [batchSize] at hk ⊢
    omega
  rw [← List.length_pos_iff, List.length_take, List.length_drop]
  simp only [batchSize] at hlt ⊢
  omega

variable (lib chat) in
/-- Nothing goes wrong that loses a record: the list is empty; or each string is a record, no `INSERT` fails, and the
`COMMIT` does not fail, except where no transaction was started. The `INSERT`s are the statements from 1 on. -/
def Survives (fails : ℕ → Bool) (records : List Bytes) : Prop :=
  records = [] ∨ (AllInserted lib chat fails 1 (batches (records.map cString)) ∧
    (fails 0 = true ∨ fails ((batches (records.map cString)).length + 1) = false))

section Flush

variable {fails : ℕ → Bool} {pool : List Connection} {redis : String → List Bytes} {table : Chat → List (List String)}

theorem exec_update_of_fails {mysql : Connection} {sql : Stmt} {s : Store} (hfails : fails s.sent = true) :
    exec fails (.update mysql sql) s = some (false, { s with sent := s.sent + 1 }) := by
  simp only [exec, hfails, if_true]

theorem exec_update_of_apply {mysql : Connection} {sql : Stmt} {s t : Store} (hfails : fails s.sent = false)
    (happly : s.apply mysql sql = some t) :
    exec fails (.update mysql sql) s = some (true, { t with sent := s.sent + 1 }) := by
  simp only [exec, hfails, Bool.false_eq_true, if_false, happly]

/-- The end of the transaction. -/
theorem exec_end (fails : ℕ → Bool) {mysql : Connection} (s : Store) (rows : List (List String))
    (hopen : ∀ open_, s.transaction mysql = some open_ → open_ = rows.map (chat, ·)) (inserted : Bool) :
    ∃ a t, exec fails (.update mysql (if inserted then .commit else .rollback)) s = some (a, t) ∧ t.redis = s.redis ∧
      t.table chat = s.table chat ++
        if (s.transaction mysql).isSome ∧ inserted = true ∧ fails s.sent = false then rows else [] := by
  cases hfails : fails s.sent with
  | true => exact ⟨false, _, exec_update_of_fails hfails, rfl, by simp⟩
  | false =>
    cases inserted with
    | false => exact ⟨true, _, exec_update_of_apply hfails rfl, rfl, by simp [Store.setTransaction]⟩
    | true =>
      refine ⟨true, _, exec_update_of_apply hfails rfl, rfl, ?_⟩
      show (s.commit mysql).table chat = _
      cases htransaction : s.transaction mysql with
      | none => simp [Store.commit, Store.commitRows, htransaction]
      | some open_ =>
        obtain rfl := hopen open_ htransaction
        rw [Store.table_commit rows htransaction]
        simp

theorem eval_flush_nil (fails : ℕ → Bool) (pool : List Connection) (table : Chat → List (List String))
    (hnil : redis chat.key = []) :
    (flushChatCache lib chat).eval (exec fails) (.idle pool redis table) = some (.ok (), .idle pool redis table) := by
  have hread : exec fails (.lrange chat.key 0 (-1)) (.idle pool redis table) = some ([], .idle pool redis table) := by
    simp [exec, Store.idle, hnil, lrange_all]
  simp only [flushChatCache, Program.eval_bind, Program.eval_perform, hread, Option.map_some, Option.bind_some,
    List.isEmpty_nil, if_true]
  rfl

/-- The store after `START TRANSACTION`, which has opened a transaction or has failed. -/
def Store.started (failed : Bool) (mysql : Connection) (pool : List Connection) (redis : String → List Bytes)
    (table : Chat → List (List String)) : Store :=
  ⟨pool, redis, table, if failed then fun _ => none else Function.update (fun _ => none) mysql (some []), 1⟩

theorem exec_startTransaction (mysql : Connection) :
    exec fails (.update mysql .startTransaction) (.idle pool redis table) =
      some (!fails 0, .started (fails 0) mysql pool redis table) := by
  cases hzero : fails 0 with
  | true => exact exec_update_of_fails hzero
  | false =>
    refine (exec_update_of_apply hzero rfl).trans ?_
    simp [Store.started, Store.idle, Store.commit, Store.commitRows, Store.setTransaction]

/-- Rows that are inserted without a transaction are in the table, the others wait. -/
theorem Store.insert_started (failed : Bool) (mysql : Connection) (rows : List (List String)) :
    ((started failed mysql pool redis table).insert mysql (rows.map (chat, ·))).table chat =
        table chat ++ (if failed then rows else []) ∧
      ((started failed mysql pool redis table).insert mysql (rows.map (chat, ·))).redis = redis ∧
      (((started failed mysql pool redis table).insert mysql (rows.map (chat, ·))).transaction mysql).isSome =
        !failed ∧
      ∀ open_, ((started failed mysql pool redis table).insert mysql (rows.map (chat, ·))).transaction mysql =
        some open_ → open_ = rows.map (chat, ·) := by
  cases failed with
  | true => simp [started, Store.insert, Store.commitRows, List.filter_map, Function.comp_def]
  | false => simp [started, Store.insert, Store.setTransaction]

/-- A flush of a list with records leaves the list empty, and in the table the rows that were inserted, if they were
committed. -/
theorem eval_flush_of_inserted {mysql : Connection} (hne : redis chat.key ≠ []) {opened : Store}
    (hopened : opened = .started (fails 0) mysql pool
      (Function.update redis chat.key (History.ltrim (redis chat.key) 1 0)) table)
    {inserted : Except Exn Bool} {rows : List (List String)} {n : ℕ}
    (heval : (insertBatches lib chat mysql (batches ((redis chat.key).map cString))).eval (exec fails) opened =
      some (inserted, { opened.insert mysql (rows.map (chat, ·)) with sent := n })) :
    ∃ t, (flushChatCache lib chat).eval (exec fails) (.idle (mysql :: pool) redis table) =
        some (inserted.map fun _ => (), t) ∧
      t.redis chat.key = [] ∧
      t.table chat = table chat ++ (if fails 0 ∨ (inserted = .ok true ∧ fails n = false) then rows else []) := by
  have hisEmpty : ((redis chat.key).map cString).isEmpty = false := by
    simpa using hne
  have htrim : Function.update redis chat.key (History.ltrim (redis chat.key) 1 0) chat.key = [] := by
    rw [Function.update_self, ltrim_clear]
  set trimmed := Function.update redis chat.key (History.ltrim (redis chat.key) 1 0) with htrimmed
  have hread : exec fails (.lrange chat.key 0 (-1)) (.idle (mysql :: pool) redis table) =
      some ((redis chat.key).map cString, .idle (mysql :: pool) redis table) := by
    simp [exec, Store.idle, lrange_all]
  have hstart : exec fails (.update mysql .startTransaction) (.idle pool trimmed table) =
      some (!fails 0, opened) := hopened ▸ exec_startTransaction mysql
  obtain ⟨htable, hredis, hsome, hopen⟩ := @Store.insert_started chat pool trimmed table (fails 0) mysql rows
  rw [← hopened] at htable hredis hsome hopen
  have htrim' : exec fails (.ltrim chat.key 1 0) (.idle (mysql :: pool) redis table) =
      some ((), .idle (mysql :: pool) trimmed table) := rfl
  have hget : exec fails .getConnection (.idle (mysql :: pool) trimmed table) =
      some (mysql, .idle pool trimmed table) := rfl
  simp only [flushChatCache, withConnection, Program.eval_bind, Program.eval_perform, hread, htrim', hget, hstart,
    Option.map_some, Option.bind_some, hisEmpty, Bool.false_eq_true, if_false, heval]
  cases inserted with
  | error e =>
    refine ⟨_, rfl, ?_, ?_⟩
    · show (opened.insert mysql (rows.map (chat, ·))).redis chat.key = []
      rw [hredis, htrim]
    · show (opened.insert mysql (rows.map (chat, ·))).table chat = _
      rw [htable]
      simp
  | ok inserted =>
    obtain ⟨a, t, hend, hredis', htable'⟩ :=
      exec_end fails { opened.insert mysql (rows.map (chat, ·)) with sent := n } rows hopen inserted
    simp only [hend, Option.map_some, Option.bind_some]
    refine ⟨_, rfl, ?_, ?_⟩
    · show t.redis chat.key = []
      rw [hredis']
      show (opened.insert mysql (rows.map (chat, ·))).redis chat.key = []
      rw [hredis, htrim]
    · show t.table chat = _
      rw [htable']
      show (opened.insert mysql (rows.map (chat, ·))).table chat ++ (if ((opened.insert mysql
        (rows.map (chat, ·))).transaction mysql).isSome ∧ _ then _ else _) = _
      rw [htable, hsome]
      cases fails 0 <;> simp

variable (lib redis) in
/-- The rows that were inserted are those of all records, or fewer than there are records. -/
theorem eval_flush (fails : ℕ → Bool) (mysql : Connection) (pool : List Connection)
    (table : Chat → List (List String)) (hne : redis chat.key ≠ []) : ∃ (r : Except Exn Unit) (t : Store)
    (inserted : Except Exn Bool) (rows : List (List String)) (n : ℕ),
    (flushChatCache lib chat).eval (exec fails) (.idle (mysql :: pool) redis table) = some (r, t) ∧
      t.redis chat.key = [] ∧
      t.table chat = table chat ++ (if fails 0 ∨ (inserted = .ok true ∧ fails n = false) then rows else []) ∧
      ((AllInserted lib chat fails 1 (batches ((redis chat.key).map cString)) ∧ r = .ok () ∧ inserted = .ok true ∧
          n = (batches ((redis chat.key).map cString)).length + 1 ∧
          rows.map some = recordRows lib chat (redis chat.key)) ∨
        (¬ AllInserted lib chat fails 1 (batches ((redis chat.key).map cString)) ∧
          rows.length < (redis chat.key).length)) := by
  set bs := batches ((redis chat.key).map cString) with hbs
  have hflatten : bs.flatten = (redis chat.key).map cString := flatten_batches _
  obtain ⟨inserted, rows, n, heval, hcases⟩ :=
    eval_insertBatches lib chat fails mysql (fun batch (hmem : batch ∈ bs) => batches_ne_nil hmem)
      (.started (fails 0) mysql pool (Function.update redis chat.key (History.ltrim (redis chat.key) 1 0)) table)
  obtain ⟨t, hflush, hredis, htable⟩ := eval_flush_of_inserted hne rfl heval
  refine ⟨_, t, inserted, rows, n, hflush, hredis, htable, ?_⟩
  rcases hcases with ⟨hall, hok, hn, hrows⟩ | ⟨hnot, hlt⟩
  · refine .inl ⟨hall, ?_, hok, ?_, ?_⟩
    · rw [hok]
      rfl
    · rw [hn]
      exact Nat.add_comm _ _
    · rw [hrows, hflatten]
      rfl
  · refine .inr ⟨hnot, ?_⟩
    rw [hflatten, List.length_map] at hlt
    exact hlt

/-- **When a flush keeps its records**, whichever of its statements fail: every record that was in the list is
committed, or still in the list, if and only if nothing goes wrong that loses one. -/
theorem kept_iff {r : Except Exn Unit} {t : Store}
    (h : (flushChatCache lib chat).eval (exec fails) (.idle pool redis table) = some (r, t)) :
    Kept lib chat (.idle pool redis table) t ↔ Survives lib chat fails (redis chat.key) := by
  by_cases hnil : redis chat.key = []
  · cases (eval_flush_nil fails pool table hnil).symm.trans h
    exact ⟨fun _ => .inl hnil, fun _ => ⟨[], by simp [Store.idle], List.Subperm.refl _⟩⟩
  · cases pool with
    | nil =>
      simp [flushChatCache, withConnection, Program.eval_bind, exec, Store.idle, lrange_all, hnil] at h
    | cons mysql pool =>
      obtain ⟨r', t', inserted, rows, n, heval, hredis, htable, hcases⟩ :=
        eval_flush lib redis fails mysql pool table hnil
      obtain ⟨rfl, rfl⟩ := Prod.mk.inj (Option.some.inj (h.symm.trans heval))
      have hkept : Kept lib chat (.idle (mysql :: pool) redis table) t ↔
          (recordRows lib chat (redis chat.key)).Subperm
            ((if fails 0 ∨ (inserted = .ok true ∧ fails n = false) then rows else []).map some) := by
        simp only [Kept, Store.idle, htable, hredis, recordRows, List.map_nil, List.append_nil,
          List.append_cancel_left_eq]
        exact ⟨fun ⟨committed, heq, hsub⟩ => heq ▸ hsub, fun hsub => ⟨_, rfl, hsub⟩⟩
      have hpos : 0 < (recordRows lib chat (redis chat.key)).length := by
        simpa [recordRows] using List.length_pos_iff.2 hnil
      rw [hkept, Survives, or_iff_right hnil]
      rcases hcases with ⟨hall, -, rfl, rfl, hrows⟩ | ⟨hnot, hlt⟩
      · rw [and_iff_right hall]
        constructor
        · intro hsub
          by_contra hlost
          rw [if_neg (by simpa using hlost)] at hsub
          exact absurd hsub.length_le (Nat.not_le.2 hpos)
        · intro hcommitted
          rw [if_pos (by simpa using hcommitted), hrows]
      · refine ⟨fun hsub => ?_, fun hall => absurd hall.1 hnot⟩
        have hle := hsub.length_le
        rw [recordRows, List.length_map, List.length_map, List.length_map] at hle
        split at hle
        · exact absurd hle (Nat.not_le.2 hlt)
        · exact absurd hle (Nat.not_le.2 (Nat.lt_of_le_of_lt (Nat.zero_le _) hlt))

/-! ## A flush that nothing fails -/

variable (lib chat) in
/-- Redis and MySQL hold the texts and the values of what the machine holds. -/
structure Represents (s : State) (t : Store) : Prop where
  redis : t.redis chat.key = (s.redis chat).map fun e => lib.dump (e.record.json chat)
  table : t.table chat = (s.table chat).map Row.values

theorem recordRow_json {record : Bytes} {r : ChatRecord} (hparse : lib.parse record = .ok (r.json chat)) :
    recordRow lib chat record = some r.values := by
  have hparsed : parseRecord lib chat record = .ok (some (r.json chat)) := by
    cases chat <;> simp [parseRecord, hparse]
  rw [← insertedRow_json chat r, insertedRow, recordRow]
  cases hliterals : literals chat (r.json chat) <;>
    simp [readRow, hparsed, hliterals, bind, Except.bind, pure, Except.pure, Except.toOption]

/-- The state of the machine when the flush `i` is through with a list, and nothing came between. -/
def State.flushed (s : State) (i : ℕ) (chat : Chat) : State :=
  { s with
    redis := Function.update s.redis chat []
    table := Function.update s.table chat (s.table chat ++ (s.redis chat).map Entry.row)
    flushes := s.flushes.set i (Flush.next chat) }

theorem exec_flush {s : State} {i : ℕ} (hflush : s.flushes[i]? = some (.lrange chat)) :
    ∃ acts, machine.exec s acts = some (s.flushed i chat) := by
  have hset : ∀ f, (s.flushes.set i f)[i]? = some f :=
    fun f => List.getElem?_set_self (List.getElem?_eq_some_iff.1 hflush).1
  by_cases hnil : s.redis chat = []
  · refine ⟨[.work i], ?_⟩
    have hredis : Function.update s.redis chat [] = s.redis := by
      rw [← hnil, Function.update_eq_self]
    simp [Machine.exec, machine, hflush, flushStep, lrange_all, hnil, hredis, State.flushed]
  · refine ⟨[.work i, .work i, .work i], ?_⟩
    simp [Machine.exec, machine, hflush, flushStep, lrange_all, ltrim_clear, hnil, hset, insertRows_eq,
      State.flushed]

/-- **The flush does what the machine does**, as far as its list and its table are concerned, when no statement fails,
the texts come back from Redis and MySQL accepts their rows. -/
theorem flush_refines {s : State} {i : ℕ} {mysql : Connection} (hflush : s.flushes[i]? = some (.lrange chat))
    (h : Represents lib chat s (.idle (mysql :: pool) redis table))
    (hparse : ∀ e ∈ s.redis chat, lib.parse (cString (lib.dump (e.record.json chat))) = .ok (e.record.json chat))
    (hstorable : ∀ record ∈ (redis chat.key).map cString, Storable lib chat record) :
    ∃ acts t, machine.Run (fun _ _ => True) s acts (s.flushed i chat) ∧
      (flushChatCache lib chat).eval (exec fun _ => false) (.idle (mysql :: pool) redis table) = some (.ok (), t) ∧
      Represents lib chat (s.flushed i chat) t := by
  obtain ⟨acts, hexec⟩ := exec_flush hflush
  by_cases hnil : s.redis chat = []
  · have hnil' : redis chat.key = [] := by
      rw [show redis chat.key = _ from h.redis, hnil, List.map_nil]
    refine ⟨acts, _, Machine.run_of_exec hexec, eval_flush_nil _ _ _ hnil', ?_, ?_⟩
    · simpa [Store.idle, State.flushed] using hnil'
    · simpa [State.flushed, hnil] using h.table
  · have hne : redis chat.key ≠ [] := by
      rw [show redis chat.key = _ from h.redis]
      simpa using hnil
    obtain ⟨r, t, inserted, rows, n, heval, hredis, htable, hcases⟩ :=
      eval_flush lib redis (fun _ => false) mysql pool table hne
    have hall : AllInserted lib chat (fun _ => false) 1 (batches ((redis chat.key).map cString)) := by
      refine ⟨fun k _ => rfl, ?_⟩
      rw [flatten_batches]
      exact hstorable
    rcases hcases with ⟨-, rfl, rfl, -, hrows⟩ | ⟨hnot, -⟩
    · have hvalues : rows = ((s.redis chat).map Entry.row).map Row.values := by
        refine List.map_injective_iff.2 (fun _ _ => Option.some.inj) ?_
        rw [hrows, recordRows, show redis chat.key = _ from h.redis]
        simp only [List.map_map]
        exact List.map_congr_left fun e he => recordRow_json (hparse e he)
      refine ⟨acts, t, Machine.run_of_exec hexec, heval, ?_, ?_⟩
      · simpa [State.flushed] using hredis
      · have hbefore : table chat = (s.table chat).map Row.values := h.table
        simp [State.flushed, htable, hbefore, hvalues]
    · exact absurd hall hnot

end Flush

/-- One record, as it is cached. -/
def sampleCache : List Bytes := [((sample 0).json .privateChat).dump]

/-- A parser that knows it. -/
def sampleLib : JsonLib := .ofList [(sample 0).json .privateChat]

theorem storable_sample : ∀ record ∈ sampleCache.map cString, Storable sampleLib .privateChat record := by
  have hclean : sampleCache.map cString = sampleCache := by decide
  rw [hclean]
  intro record hrecord
  obtain rfl := List.mem_singleton.1 hrecord
  refine ⟨["1", "0", "it''s", "2024-08-12 10:00:00"], ["1", "0", "it's", "2024-08-12 10:00:00"], rfl, rfl, ?_⟩
  decide

/-- `START TRANSACTION` fails, and so does `COMMIT`: the record is committed all the same. -/
theorem kept_iff_sample : ∃ r t, (flushChatCache sampleLib .privateChat).eval (exec fun k => k == 0 || k == 2)
      (.idle [1] (fun _ => sampleCache) fun _ => []) = some (r, t) ∧
    Kept sampleLib .privateChat (.idle [1] (fun _ => sampleCache) fun _ => []) t := by
  have hne : (fun _ : String => sampleCache) Chat.privateChat.key ≠ [] := by simp [sampleCache]
  obtain ⟨r, t, -, -, -, heval, -⟩ :=
    eval_flush sampleLib (fun _ => sampleCache) (fun k => k == 0 || k == 2) 1 [] (fun _ => []) hne
  refine ⟨r, t, heval, (kept_iff heval).2 (.inr ⟨⟨?_, ?_⟩, .inl rfl⟩)⟩
  · decide
  · rw [flatten_batches]
    exact storable_sample

/-- The `INSERT` fails: the record is in neither. -/
theorem insert_fails : ∃ t, (flushChatCache sampleLib .privateChat).eval (exec fun k => k == 1)
      (.idle [1] (fun _ => sampleCache) fun _ => []) = some (.ok (), t) ∧
    t.redis Chat.privateChat.key = [] ∧ t.table .privateChat = [] ∧
    ¬ Kept sampleLib .privateChat (.idle [1] (fun _ => sampleCache) fun _ => []) t := by
  refine ⟨_, rfl, rfl, rfl, ?_⟩
  rintro ⟨committed, htable, hsub⟩
  obtain rfl : [] = committed := htable
  exact absurd hsub.length_le (by decide)

end Chatroom.History
