import Chatroom.Database.Commands
import Chatroom.History.CacheManager

/-!
# `flushCacheToDatabase`, statement by statement

The flush of a list reads it, clears it, and inserts what it has read in batches, inside a transaction. The two lists
differ in one point: a string that is not JSON is skipped in the flush of the group list, and ends the flush of the
private list with an exception.
-/

namespace Chatroom.History

open Lib Database

/-- The Redis key of a list. -/
def Chat.key : Chat → String
  | .privateChat => "private_chat_cache"
  | .groupChat => "group_chat_cache"

variable (lib : JsonLib)

/-- What a cached string is parsed to, none if it is skipped. -/
def parseRecord (chat : Chat) (record : Bytes) : Except Exn (Option Json) :=
  match chat, lib.parse record with
  | _, .ok js => .ok (some js)
  | .privateChat, .error e => .error e
  | .groupChat, .error _ => .ok none

/-- The literals that a cached string contributes to its batch. -/
def readRow (chat : Chat) (record : Bytes) : Except Exn (Option (List String)) := do
  match ← parseRecord lib chat record with
  | some js => return some (← literals chat js)
  | none => return none

def readBatch (chat : Chat) (batch : List Bytes) : Except Exn (List (List String)) := do
  return (← batch.mapM (readRow lib chat)).reduceOption

/-- The loop over the batches: whether all of them were inserted. -/
def insertBatches (chat : Chat) (mysql : Connection) : List (List Bytes) → DbTask Bool
  | [] => return true
  | batch :: rest => do
    let rows ← Program.ofExcept (readBatch lib chat batch)
    let inserted : Bool ← perform (.update mysql (.insertHistory chat rows))
    if inserted then insertBatches chat mysql rest else return false

def flushChatCache (chat : Chat) : DbTask Unit := do
  let cachedMessages : List Bytes ← perform (.lrange chat.key 0 (-1))
  if cachedMessages.isEmpty then return
  perform (.ltrim chat.key 1 0)
  withConnection fun mysql => do
    let _ ← perform (.update mysql .startTransaction)
    let inserted ← insertBatches lib chat mysql (batches cachedMessages)
    let _ ← perform (.update mysql (if inserted then .commit else .rollback))

def flushPrivateChatCache : DbTask Unit := flushChatCache lib .privateChat

def flushGroupChatCache : DbTask Unit := flushChatCache lib .groupChat

def flushCacheToDatabase : DbTask Unit := do
  flushPrivateChatCache lib
  flushGroupChatCache lib

/-! ## Records that throw -/

variable {lib} {chat : Chat}

theorem mapM_ok_iff {α β ε : Type} {f : α → Except ε β} {l : List α} {l' : List β} :
    l.mapM f = .ok l' ↔ List.Forall₂ (fun a b => f a = .ok b) l l' := by
  induction l generalizing l' with
  | nil =>
    refine ⟨fun h => Except.ok.inj h ▸ .nil, ?_⟩
    rintro ⟨⟩
    rfl
  | cons a l ih =>
    rw [List.mapM_cons]
    constructor
    · intro h
      cases hb : f a with
      | error e => simp [hb, bind, Except.bind] at h
      | ok b =>
        cases hl : l.mapM f with
        | error e => simp [hb, hl, bind, Except.bind] at h
        | ok bs =>
          simp only [hb, hl, bind, Except.bind, pure, Except.pure] at h
          obtain rfl := Except.ok.inj h
          exact .cons hb (ih.1 hl)
    · rintro (_ | ⟨hb, hl⟩)
      simp [hb, ih.2 hl, bind, Except.bind, pure, Except.pure]

theorem exists_mapM_ok_iff {α β ε : Type} {f : α → Except ε β} {l : List α} :
    (∃ l', l.mapM f = .ok l') ↔ ∀ a ∈ l, ∃ b, f a = .ok b := by
  simp only [mapM_ok_iff]
  constructor
  · rintro ⟨l', h⟩
    induction h with
    | nil => simp
    | cons hb _ ih =>
      rw [List.forall_mem_cons]
      exact ⟨⟨_, hb⟩, ih⟩
  · intro h
    induction l with
    | nil => exact ⟨[], .nil⟩
    | cons a l ih =>
      rw [List.forall_mem_cons] at h
      obtain ⟨b, hb⟩ := h.1
      obtain ⟨l', hl⟩ := ih h.2
      exact ⟨b :: l', .cons hb hl⟩

theorem readBatch_eq_ok {batch : List Bytes} {rows : List (List String)} : readBatch lib chat batch = .ok rows ↔
    ∃ read, List.Forall₂ (fun record row => readRow lib chat record = .ok row) batch read ∧
      rows = read.reduceOption := by
  rw [readBatch]
  simp only [← mapM_ok_iff]
  cases List.mapM (readRow lib chat) batch with
  | error e => simp [bind, Except.bind]
  | ok read => simp [bind, Except.bind, pure, Except.pure, eq_comm]

theorem readBatch_ok_iff {batch : List Bytes} :
    (∃ rows, readBatch lib chat batch = .ok rows) ↔ ∀ record ∈ batch, ∃ row, readRow lib chat record = .ok row := by
  rw [← exists_mapM_ok_iff, readBatch]
  cases batch.mapM (readRow lib chat) <;> simp [bind, Except.bind, pure, Except.pure]

variable (lib chat) in
/-- No record throws in the batches that are reached, where `inserted k` says whether the batch `k` is inserted. -/
def Reads (inserted : ℕ → Bool) (batches : List (List Bytes)) : Prop :=
  ∀ k batch, batches[k]? = some batch → (∀ j < k, inserted j = true) →
    ∀ record ∈ batch, ∃ row, readRow lib chat record = .ok row

theorem reads_cons {inserted : ℕ → Bool} {batch : List Bytes} {rest : List (List Bytes)} :
    Reads lib chat inserted (batch :: rest) ↔ (∀ record ∈ batch, ∃ row, readRow lib chat record = .ok row) ∧
      (inserted 0 = true → Reads lib chat (fun k => inserted (k + 1)) rest) := by
  constructor
  · intro h
    refine ⟨h 0 batch rfl fun j hj => absurd hj (Nat.not_lt_zero j), fun hzero k batch' hk hj => ?_⟩
    refine h (k + 1) batch' hk fun j hlt => ?_
    cases j with
    | zero => exact hzero
    | succ j => exact hj j (Nat.lt_of_succ_lt_succ hlt)
  · rintro ⟨hbatch, hrest⟩ k batch' hk hj
    cases k with
    | zero =>
      obtain rfl : batch = batch' := Option.some.inj hk
      exact hbatch
    | succ k =>
      exact hrest (hj 0 (Nat.succ_pos k)) k batch' hk fun j hlt => hj (j + 1) (Nat.succ_lt_succ hlt)

end Chatroom.History
