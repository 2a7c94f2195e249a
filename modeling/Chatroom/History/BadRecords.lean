import Chatroom.History.Statements

/-!
# Strings that sink the others

The flush of one list, alone with Redis and MySQL, when no statement is refused for another reason than its text. A
string that is not JSON ends the flush of the private list; a record with U+0000 cuts its `INSERT` short; a batch of
the group list in which every string is skipped is an `INSERT` without rows. Each of them costs all records of the
list (`others_committed_iff`).
-/

namespace Chatroom.History

open Lib Database

/-! ## What the strings are -/

section Strings

variable (lib : JsonLib) (chat : Chat)

/-- The string is parsed to an object with the fields of `r`. -/
def IsRecord (record : Bytes) (r : ChatRecord) : Prop :=
  ∃ js, lib.parse record = .ok js ∧ ∀ column ∈ chat.columns, js.stringField column = (r.json chat).stringField column

/-- A record with any message, a string that is not JSON, or JSON in which a field of a record is not found. -/
inductive Cached (record : Bytes) : Prop
  | record {r : ChatRecord} (h : IsRecord lib chat record r)
  | notJson {e : Exn} (h : lib.parse record = .error e)
  | noRecord {js : Json} {column : String} {e : Exn} (h : lib.parse record = .ok js) (hmem : column ∈ chat.columns)
      (hfield : js.stringField column = .error e)

/-- A record without U+0000. -/
def Clean (record : Bytes) : Prop :=
  ∃ r, IsRecord lib chat record r ∧ ∀ value ∈ r.values, '\x00' ∉ value.toList

/-- The group list allows for strings that are not JSON. -/
def Skipped (record : Bytes) : Prop := chat = .groupChat ∧ ∃ e, lib.parse record = .error e

/-- No string sinks the others. -/
def Harmless (records : List Bytes) : Prop :=
  (∀ record ∈ records, Clean lib chat record ∨ Skipped lib chat record) ∧
    ∀ batch ∈ batches records, ∃ record ∈ batch, Clean lib chat record

/-- Every record of the list but that at the position `i` is committed. -/
def OthersCommitted (i : ℕ) (s t : Store) : Prop :=
  ∃ committed, t.table chat = s.table chat ++ committed ∧
    ((((s.redis chat.key).map cString).eraseIdx i).filterMap (recordRow lib chat)).Subperm committed

end Strings

variable {lib : JsonLib} {chat : Chat}

/-! ## One string -/

theorem nul_mem_escapeSQLString (l : List Char) : '\x00' ∈ escapeSQLString l ↔ '\x00' ∈ l := by
  induction l with
  | nil => rfl
  | cons c l ih =>
    rw [escapeSQLString]
    split
    case isTrue hquote =>
      subst hquote
      simp [ih]
    case isFalse =>
      split
      case isTrue hback =>
        subst hback
        simp [ih]
      case isFalse => simp [ih]

theorem mapM_congr {α β ε : Type} {f g : α → Except ε β} {l : List α} (h : ∀ a ∈ l, f a = g a) :
    l.mapM f = l.mapM g := by
  induction l with
  | nil => rfl
  | cons a l ih =>
    rw [List.forall_mem_cons] at h
    rw [List.mapM_cons, List.mapM_cons, h.1, ih h.2]

theorem exists_of_forall₂_mem {α β : Type} {R : α → β → Prop} {l : List α} {l' : List β} (h : List.Forall₂ R l l')
    {a : α} (ha : a ∈ l) : ∃ b ∈ l', R a b := by
  induction h with
  | nil => cases ha
  | @cons _ b _ _ hb _ ih =>
    rcases List.mem_cons.1 ha with rfl | ha
    · exact ⟨b, by simp, hb⟩
    · obtain ⟨c, hc, hR⟩ := ih ha
      exact ⟨c, by simp [hc], hR⟩

variable {record : Bytes} {r : ChatRecord}

theorem IsRecord.readRow (h : IsRecord lib chat record r) :
    readRow lib chat record = .ok (some r.literals) := by
  obtain ⟨js, hparse, hfields⟩ := h
  have hparsed : parseRecord lib chat record = .ok (some js) := by
    cases chat <;> simp [parseRecord, hparse]
  have hliterals : literals chat js = .ok r.literals := by
    rw [← literals_json chat r, literals, literals]
    exact mapM_congr fun column hmem => by rw [hfields column hmem]
  simp [History.readRow, hparsed, hliterals, bind, Except.bind, pure, Except.pure]

theorem storedRow_literals (r : ChatRecord) : storedRow r.literals = some r.values := by
  simpa [insertedRow, literals_json, Except.toOption] using insertedRow_json .privateChat r

theorem IsRecord.recordRow (h : IsRecord lib chat record r) : recordRow lib chat record = some r.values := by
  rw [History.recordRow, h.readRow]
  exact storedRow_literals r

theorem nul_mem_literals (r : ChatRecord) :
    (∃ l ∈ r.literals, '\x00' ∈ l.toList) ↔ ∃ value ∈ r.values, '\x00' ∈ value.toList := by
  simp [ChatRecord.literals, ChatRecord.values, nul_mem_escapeSQLString]

/-- A string that is not JSON. -/
theorem readRow_of_error {e : Exn} (h : lib.parse record = .error e) :
    readRow lib chat record = match chat with
      | .privateChat => .error e
      | .groupChat => .ok none := by
  cases chat <;> simp [readRow, parseRecord, h, bind, Except.bind, pure, Except.pure]

theorem readRow_of_noField {js : Json} {column : String} {e : Exn} (h : lib.parse record = .ok js)
    (hmem : column ∈ chat.columns) (hfield : js.stringField column = .error e) :
    ∃ e', readRow lib chat record = .error e' := by
  have hparsed : parseRecord lib chat record = .ok (some js) := by
    cases chat <;> simp [parseRecord, h]
  cases hliterals : literals chat js with
  | error e' => exact ⟨e', by simp [readRow, hparsed, hliterals, bind, Except.bind]⟩
  | ok row =>
    obtain ⟨l, -, hl⟩ := exists_of_forall₂_mem (mapM_ok_iff.1 hliterals) hmem
    simp [hfield, bind, Except.bind] at hl

/-! ## One batch -/

theorem Clean.storable (h : Clean lib chat record) : Storable lib chat record := by
  obtain ⟨r, hr, hnul⟩ := h
  refine ⟨r.literals, r.values, hr.readRow, storedRow_literals r, fun l hl hmem => ?_⟩
  obtain ⟨value, hvalue, hmem'⟩ := (nul_mem_literals r).1 ⟨l, hl, hmem⟩
  exact hnul value hvalue hmem'

/-- Of what a list can hold, these are the strings that a batch can take. -/
theorem Cached.readRow_ok (h : Cached lib chat record) {row : Option (List String)}
    (hrow : readRow lib chat record = .ok row) (hnul : ∀ literals ∈ row, ∀ l ∈ literals, '\x00' ∉ l.toList) :
    Clean lib chat record ∧ row ≠ none ∨ Skipped lib chat record ∧ row = none := by
  cases h with
  | @record r h =>
    obtain rfl : some r.literals = row := Except.ok.inj (h.readRow.symm.trans hrow)
    refine .inl ⟨⟨r, h, fun value hvalue hmem => ?_⟩, by simp⟩
    obtain ⟨l, hl, hmem'⟩ := (nul_mem_literals r).2 ⟨value, hvalue, hmem⟩
    exact hnul r.literals rfl l hl hmem'
  | @notJson e h =>
    rw [readRow_of_error h] at hrow
    cases chat with
    | privateChat => cases hrow
    | groupChat =>
      cases hrow
      exact .inr ⟨⟨rfl, e, h⟩, rfl⟩
  | noRecord h hmem hfield =>
    obtain ⟨e', he⟩ := readRow_of_noField h hmem hfield
    cases he.symm.trans hrow

/-- The batch is inserted as `stored`. -/
def Inserts (lib : JsonLib) (chat : Chat) (batch : List Bytes) (stored : List (List String)) : Prop :=
  ∃ rows, readBatch lib chat batch = .ok rows ∧ insertedRows rows = some stored

/-- What the batch becomes when its strings can be taken. -/
theorem readBatch_of_clean {batch : List Bytes}
    (h : ∀ record ∈ batch, Clean lib chat record ∨ Skipped lib chat record) :
    ∃ rows, readBatch lib chat batch = .ok rows ∧ (∀ literals ∈ rows, ∀ l ∈ literals, '\x00' ∉ l.toList) ∧
      rows.map storedRow = (batch.filterMap (recordRow lib chat)).map some := by
  have hread : ∃ read : List (Option (List String)),
      List.Forall₂ (fun record row => readRow lib chat record = .ok row) batch read ∧
      (∀ literals ∈ read.reduceOption, ∀ l ∈ literals, '\x00' ∉ l.toList) ∧
      read.reduceOption.map storedRow = (batch.filterMap (recordRow lib chat)).map some := by
    induction batch with
    | nil => exact ⟨[], .nil, by simp, rfl⟩
    | cons record batch ih =>
      rw [List.forall_mem_cons] at h
      obtain ⟨read, hread, hnul, hstored⟩ := ih h.2
      rcases h.1 with hclean | ⟨rfl, e, he⟩
      · obtain ⟨literals, row, hrow, hstored', hnul'⟩ := hclean.storable
        have hrecord : recordRow lib chat record = some row := by rw [recordRow, hrow, ← hstored']
        refine ⟨some literals :: read, .cons hrow hread, ?_, ?_⟩
        · rw [List.reduceOption_cons_of_some, List.forall_mem_cons]
          exact ⟨hnul', hnul⟩
        · rw [List.reduceOption_cons_of_some, List.map_cons, List.filterMap_cons_some hrecord, List.map_cons, hstored',
            hstored]
      · have hrow : readRow lib .groupChat record = .ok none := readRow_of_error he
        have hrecord : recordRow lib .groupChat record = none := by rw [recordRow, hrow]
        refine ⟨none :: read, .cons hrow hread, ?_, ?_⟩
        · rwa [List.reduceOption_cons_of_none]
        · rw [List.reduceOption_cons_of_none, List.filterMap_cons_none hrecord, hstored]
  obtain ⟨read, hread, hnul, hstored⟩ := hread
  exact ⟨read.reduceOption, readBatch_eq_ok.2 ⟨read, hread, rfl⟩, hnul, hstored⟩

/-- A batch is inserted when its strings can be taken and one of them is a record. -/
theorem inserts_iff {batch : List Bytes} (hcached : ∀ record ∈ batch, Cached lib chat record) :
    (∃ stored, Inserts lib chat batch stored) ↔ (∀ record ∈ batch, Clean lib chat record ∨ Skipped lib chat record) ∧
      ∃ record ∈ batch, Clean lib chat record := by
  constructor
  · rintro ⟨stored, rows, hrows, hinserted⟩
    obtain ⟨read, hread, rfl⟩ := readBatch_eq_ok.1 hrows
    obtain ⟨hne, hnul, -⟩ := insertedRows_eq_some.1 hinserted
    have htaken : ∀ record ∈ batch, ∀ row ∈ read, readRow lib chat record = .ok row →
        Clean lib chat record ∧ row ≠ none ∨ Skipped lib chat record ∧ row = none := by
      intro record hrecord row hrow heq
      refine (hcached record hrecord).readRow_ok heq fun literals hliterals => hnul literals ?_
      rw [List.reduceOption_mem_iff, ← Option.mem_def.1 hliterals]
      exact hrow
    refine ⟨fun record hrecord => ?_, ?_⟩
    · obtain ⟨row, hrow, heq⟩ := exists_of_forall₂_mem hread hrecord
      exact (htaken record hrecord row hrow heq).imp And.left And.left
    · obtain ⟨literals, hliterals⟩ := List.exists_mem_of_ne_nil _ hne
      rw [List.reduceOption_mem_iff] at hliterals
      obtain ⟨record, hrecord, heq⟩ := exists_of_forall₂_mem hread.flip hliterals
      rcases htaken record hrecord _ hliterals heq with ⟨hclean, -⟩ | ⟨-, hnone⟩
      · exact ⟨record, hrecord, hclean⟩
      · cases hnone
  · rintro ⟨htaken, record, hrecord, hclean⟩
    obtain ⟨rows, hrows, hnul, hstored⟩ := readBatch_of_clean htaken
    refine ⟨_, rows, hrows, insertedRows_eq_some.2 ⟨?_, hnul, hstored⟩⟩
    rintro rfl
    obtain ⟨r, hr, -⟩ := hclean
    have hmem : r.values ∈ batch.filterMap (recordRow lib chat) := List.mem_filterMap.2 ⟨record, hrecord, hr.recordRow⟩
    rw [List.map_nil, eq_comm, List.map_eq_nil_iff] at hstored
    rw [hstored] at hmem
    cases hmem

theorem Inserts.eq_filterMap {batch : List Bytes} {stored : List (List String)} (h : Inserts lib chat batch stored)
    (htaken : ∀ record ∈ batch, Clean lib chat record ∨ Skipped lib chat record) :
    stored = batch.filterMap (recordRow lib chat) := by
  obtain ⟨rows, hrows, hinserted⟩ := h
  obtain ⟨rows', hrows', -, hstored⟩ := readBatch_of_clean htaken
  obtain rfl := Except.ok.inj (hrows.symm.trans hrows')
  exact List.map_injective_iff.2 (fun _ _ => Option.some.inj) ((insertedRows_eq_some.1 hinserted).2.2.symm.trans hstored)

/-! ## All batches -/

variable (lib chat) in
/-- With nothing else that fails, the batches are inserted up to the first that cannot be. -/
theorem eval_insertBatches_working (mysql : Connection) (bs : List (List Bytes)) (s : Store) :
    ∃ (inserted : Except Exn Bool) (rows : List (List String)) (n : ℕ),
      (insertBatches lib chat mysql bs).eval (exec fun _ => false) s =
        some (inserted, { s.insert mysql (rows.map (chat, ·)) with sent := n }) ∧
      ((∃ stored, List.Forall₂ (Inserts lib chat) bs stored ∧ inserted = .ok true ∧ rows = stored.flatten) ∨
        ((¬ ∀ batch ∈ bs, ∃ stored, Inserts lib chat batch stored) ∧ inserted ≠ .ok true)) := by
  induction bs generalizing s with
  | nil =>
    refine ⟨.ok true, [], s.sent, ?_, .inl ⟨[], .nil, rfl, rfl⟩⟩
    rw [List.map_nil, Store.insert_nil]
    rfl
  | cons batch rest ih =>
    simp only [insertBatches, Program.eval_bind]
    cases hrows : readBatch lib chat batch with
    | error e =>
      refine ⟨.error e, [], s.sent, ?_, .inr ⟨fun hall => ?_, by simp⟩⟩
      · rw [List.map_nil, Store.insert_nil]
        rfl
      · obtain ⟨-, rows, hrows', -⟩ := hall batch (by simp)
        cases hrows.symm.trans hrows'
    | ok rows =>
      simp only [Program.ofExcept, Program.eval_ret, Option.bind_some, Program.eval_perform, exec, Store.apply,
        Bool.false_eq_true, if_false]
      cases hinserted : insertedRows rows with
      | none =>
        refine ⟨.ok false, [], s.sent + 1, ?_, .inr ⟨fun hall => ?_, by simp⟩⟩
        · rw [List.map_nil, Store.insert_nil]
          rfl
        · obtain ⟨stored, rows', hrows', hinserted'⟩ := hall batch (by simp)
          obtain rfl := Except.ok.inj (hrows.symm.trans hrows')
          cases hinserted.symm.trans hinserted'
      | some stored =>
        obtain ⟨inserted, rows', n, heval, hcases⟩ :=
          ih { s.insert mysql (stored.map (chat, ·)) with sent := s.sent + 1 }
        refine ⟨inserted, stored ++ rows', n, ?_, ?_⟩
        · rw [List.map_append, ← Store.insert_insert _ _ (s.sent + 1), ← heval]
          rfl
        · rcases hcases with ⟨rest', hrest, hok, hrows'⟩ | ⟨hnot, hne⟩
          · refine .inl ⟨stored :: rest', .cons ⟨rows, hrows, hinserted⟩ hrest, hok, ?_⟩
            rw [hrows', List.flatten_cons]
          · exact .inr ⟨fun hall => hnot (List.forall_mem_cons.1 hall).2, hne⟩

theorem harmless_iff {records : List Bytes} (hcached : ∀ record ∈ records, Cached lib chat record) :
    Harmless lib chat records ↔ ∀ batch ∈ batches records, ∃ stored, Inserts lib chat batch stored := by
  have hmem : ∀ record, record ∈ records ↔ ∃ batch ∈ batches records, record ∈ batch := by
    intro record
    rw [← List.mem_flatten, flatten_batches]
  have hiff : ∀ batch ∈ batches records, (∃ stored, Inserts lib chat batch stored) ↔
      (∀ record ∈ batch, Clean lib chat record ∨ Skipped lib chat record) ∧ ∃ record ∈ batch, Clean lib chat record :=
    fun batch hbatch => inserts_iff fun record hrecord => hcached record ((hmem record).2 ⟨batch, hbatch, hrecord⟩)
  constructor
  · rintro ⟨htaken, hclean⟩ batch hbatch
    exact (hiff batch hbatch).2 ⟨fun record hrecord => htaken record ((hmem record).2 ⟨batch, hbatch, hrecord⟩),
      hclean batch hbatch⟩
  · intro h
    refine ⟨fun record hrecord => ?_, fun batch hbatch => ((hiff batch hbatch).1 (h batch hbatch)).2⟩
    obtain ⟨batch, hbatch, hrecord⟩ := (hmem record).1 hrecord
    exact ((hiff batch hbatch).1 (h batch hbatch)).1 record hrecord

/-- The rows of the batches are those of all records. -/
theorem flatten_inserts {bs : List (List Bytes)} {stored : List (List (List String))}
    (h : List.Forall₂ (Inserts lib chat) bs stored)
    (htaken : ∀ batch ∈ bs, ∀ record ∈ batch, Clean lib chat record ∨ Skipped lib chat record) :
    stored.flatten = bs.flatten.filterMap (recordRow lib chat) := by
  induction h with
  | nil => rfl
  | cons hbatch _ ih =>
    rw [List.forall_mem_cons] at htaken
    rw [List.flatten_cons, List.flatten_cons, List.filterMap_append, hbatch.eq_filterMap htaken.1, ih htaken.2]

/-! ## The flush -/

theorem Cached.recordRow_eq_none (h : Cached lib chat record) :
    recordRow lib chat record = none ↔ ∀ r, ¬ IsRecord lib chat record r := by
  refine ⟨fun hnone r hr => ?_, fun hnot => ?_⟩
  · cases hr.recordRow.symm.trans hnone
  · cases h with
    | record h => exact absurd h (hnot _)
    | notJson h =>
      rw [recordRow, readRow_of_error h]
      cases chat <;> rfl
    | noRecord h hmem hfield =>
      obtain ⟨e, he⟩ := readRow_of_noField h hmem hfield
      rw [recordRow, he]

theorem filterMap_eraseIdx_eq_nil {records : List Bytes} (hcached : ∀ record ∈ records, Cached lib chat record)
    (i : ℕ) : (records.eraseIdx i).filterMap (recordRow lib chat) = [] ↔
      ∀ j ≠ i, ∀ record, records[j]? = some record → ∀ r, ¬ IsRecord lib chat record r := by
  rw [List.filterMap_eq_nil_iff]
  constructor
  · intro h j hj record hrecord
    rw [← (hcached record (List.mem_of_getElem? hrecord)).recordRow_eq_none]
    exact h record (List.mem_eraseIdx_iff_getElem?.2 ⟨j, hj, hrecord⟩)
  · intro h record hmem
    obtain ⟨j, hj, hrecord⟩ := List.mem_eraseIdx_iff_getElem?.1 hmem
    exact (hcached record (List.mem_of_getElem? hrecord)).recordRow_eq_none.2 (h j hj record hrecord)

/-- **When one string cannot sink the others**: the records but that at `i` are all committed if and only if there are
none, or no string is harmful. -/
theorem others_committed_iff (lib : JsonLib) (chat : Chat) (mysql : Connection) (pool : List Connection)
    (redis : String → List Bytes) (table : Chat → List (List String))
    (hcached : ∀ record ∈ (redis chat.key).map cString, Cached lib chat record) (i : ℕ) :
    ∃ r t, (flushChatCache lib chat).eval (exec fun _ => false) (.idle (mysql :: pool) redis table) = some (r, t) ∧
      (OthersCommitted lib chat i (.idle (mysql :: pool) redis table) t ↔
        (∀ j ≠ i, ∀ record, ((redis chat.key).map cString)[j]? = some record → ∀ r, ¬ IsRecord lib chat record r) ∨
          Harmless lib chat ((redis chat.key).map cString)) := by
  rw [← filterMap_eraseIdx_eq_nil hcached]
  by_cases hnil : redis chat.key = []
  · refine ⟨_, _, eval_flush_nil _ _ _ hnil, ?_⟩
    simp [OthersCommitted, Store.idle, hnil]
  · obtain ⟨inserted, rows, n, heval, hcases⟩ :=
      eval_insertBatches_working lib chat mysql (batches ((redis chat.key).map cString)) (.started false mysql pool
        (Function.update redis chat.key (History.ltrim (redis chat.key) 1 0)) table)
    obtain ⟨t, hflush, -, htable⟩ := eval_flush_of_inserted hnil (by rfl) heval
    refine ⟨_, t, hflush, ?_⟩
    have hothers : OthersCommitted lib chat i (.idle (mysql :: pool) redis table) t ↔
        ((((redis chat.key).map cString).eraseIdx i).filterMap (recordRow lib chat)).Subperm
          (if inserted = .ok true then rows else []) := by
      simp [OthersCommitted, Store.idle, htable]
    rw [hothers, harmless_iff hcached]
    rcases hcases with ⟨stored, hstored, rfl, rfl⟩ | ⟨hnot, hne⟩
    · have hall : ∀ batch ∈ batches ((redis chat.key).map cString), ∃ stored, Inserts lib chat batch stored := by
        intro batch hbatch
        obtain ⟨stored, -, h⟩ := exists_of_forall₂_mem hstored hbatch
        exact ⟨stored, h⟩
      have htaken := ((harmless_iff hcached).2 hall).1
      refine iff_of_true ?_ (.inr hall)
      rw [if_pos rfl, flatten_inserts hstored ?_, flatten_batches]
      · exact ((List.eraseIdx_sublist _ i).filterMap _).subperm
      · intro batch hbatch record hrecord
        refine htaken record ?_
        rw [← flatten_batches ((redis chat.key).map cString)]
        exact List.mem_flatten.2 ⟨batch, hbatch, hrecord⟩
    · rw [if_neg hne, or_iff_left hnot]
      exact List.subperm_nil

/-- A string that is not JSON, and a record. -/
def brokenCache : List Bytes := [120] :: sampleCache

theorem others_committed_iff_broken : ∃ r t, (flushChatCache sampleLib .privateChat).eval (exec fun _ => false)
      (.idle [1] (fun _ => brokenCache) fun _ => []) = some (r, t) ∧
    (OthersCommitted sampleLib .privateChat 0 (.idle [1] (fun _ => brokenCache) fun _ => []) t ↔
      (∀ j ≠ 0, ∀ record, (brokenCache.map cString)[j]? = some record →
          ∀ r, ¬ IsRecord sampleLib .privateChat record r) ∨
        Harmless sampleLib .privateChat (brokenCache.map cString)) := by
  refine others_committed_iff sampleLib .privateChat 1 [] (fun _ => brokenCache) (fun _ => []) ?_ 0
  have hclean : brokenCache.map cString = [[120], ((sample 0).json .privateChat).dump] := by decide
  rw [hclean]
  intro record hrecord
  rcases List.mem_cons.1 hrecord with rfl | hrecord
  · exact .notJson rfl
  · obtain rfl := List.mem_singleton.1 hrecord
    exact .record ⟨(sample 0).json .privateChat, rfl, fun _ _ => rfl⟩

/-- The flush of the private list throws after it has cleared the list, and the record is in neither. -/
theorem broken_sinks : ∃ e t, (flushChatCache sampleLib .privateChat).eval (exec fun _ => false)
      (.idle [1] (fun _ => brokenCache) fun _ => []) = some (.error e, t) ∧
    t.redis Chat.privateChat.key = [] ∧
    ¬ OthersCommitted sampleLib .privateChat 0 (.idle [1] (fun _ => brokenCache) fun _ => []) t := by
  refine ⟨_, _, rfl, rfl, ?_⟩
  rintro ⟨committed, htable, hsub⟩
  obtain rfl : [] = committed := htable
  exact absurd hsub.length_le (by decide)

end Chatroom.History
