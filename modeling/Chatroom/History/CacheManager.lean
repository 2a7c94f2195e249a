import Mathlib.Logic.Function.Basic
import Chatroom.Lib.Machine
import Chatroom.History.ChatRecord

/-!
# `CacheManager`

The two Redis lists, the two history tables, and the runs of `flushCacheToDatabase` in between. A store call
is one `RPUSH`; a flush takes three steps for each list, its `LRANGE`, its `LTRIM 1 0` and its transaction.
Stores and flushes interleave in every order, and no command fails.

Stores are numbered, so that equal messages stay apart: `ExactlyOnce` says that lists and tables together
hold the stored messages, one by one.
-/

namespace Chatroom.History

open Lib

/-! ## Redis lists and batches -/

/-- `LRANGE key start stop`; a negative index counts from the end. -/
def lrange {α : Type*} (l : List α) (start stop : ℤ) : List α :=
  let start := if start < 0 then max 0 (l.length + start) else start
  let stop := if stop < 0 then l.length + stop else stop
  (l.take (stop + 1).toNat).drop start.toNat

/-- `LTRIM key start stop` keeps what `LRANGE` would return. -/
def ltrim {α : Type*} (l : List α) (start stop : ℤ) : List α := lrange l start stop

theorem lrange_all {α : Type*} (l : List α) : lrange l 0 (-1) = l := by
  have hstop : ((l.length : ℤ) + -1 + 1).toNat = l.length := by omega
  simp only [lrange, show ¬ (0 : ℤ) < 0 by omega, show (-1 : ℤ) < 0 by omega, if_true, if_false, hstop,
    List.take_length]
  rfl

theorem ltrim_clear {α : Type*} (l : List α) : ltrim l 1 0 = [] := by
  simp only [ltrim, lrange, show ¬ (1 : ℤ) < 0 by omega, show ¬ (0 : ℤ) < 0 by omega, if_false]
  refine List.drop_eq_nil_of_le ?_
  rw [List.length_take]
  exact Nat.min_le_left _ _

def batchSize : ℕ := 100

/-- The slices that the loop `for (i = 0; i < totalMessages; i += batchSize)` inserts. -/
def batches {α : Type*} (messages : List α) : List (List α) :=
  (List.range ((messages.length + batchSize - 1) / batchSize)).map fun k =>
    (messages.drop (k * batchSize)).take batchSize

theorem flatten_slices {α : Type*} (l : List α) (n k : ℕ) :
    ((List.range k).map fun j => (l.drop (j * n)).take n).flatten = l.take (k * n) := by
  induction k with
  | zero => simp
  | succ k ih =>
    rw [List.range_succ, List.map_append, List.flatten_append, ih, Nat.succ_mul, List.take_add]
    simp

/-- Between them, the batches insert every message once and in order. -/
theorem flatten_batches {α : Type*} (messages : List α) : (batches messages).flatten = messages := by
  rw [batches, flatten_slices, List.take_of_length_le]
  simp only [batchSize]
  omega

/-! ## The machine -/

/-- A stored message, with the number of its store call. -/
structure Entry where
  no : ℕ
  record : ChatRecord

structure Row where
  no : ℕ
  values : List String

/-- The row a message is to become. -/
def Entry.row (e : Entry) : Row := ⟨e.no, e.record.values⟩

/-- A run of `flushCacheToDatabase`, at its next step. -/
inductive Flush where
  | lrange (chat : Chat)
  | ltrim (chat : Chat) (cachedMessages : List Entry)
  | insert (chat : Chat) (cachedMessages : List Entry)
  | done

structure State where
  redis : Chat → List Entry
  table : Chat → List Row
  flushes : List Flush
  /-- all messages that were stored, in order -/
  stored : Chat → List Entry
  /-- the number of the next store call -/
  next : ℕ

def init : State := ⟨fun _ => [], fun _ => [], [], fun _ => [], 0⟩

inductive Act where
  /-- `storePrivateMessageInCache`, `storeGroupMessageInCache` -/
  | store (chat : Chat) (record : ChatRecord)
  /-- a worker takes a `flushCacheToDatabase` -/
  | flushCacheToDatabase
  /-- the next step of the flush `i` -/
  | work (i : ℕ)

/-- `flushPrivateChatCache` is followed by `flushGroupChatCache`. -/
def Flush.next : Chat → Flush
  | .privateChat => .lrange .groupChat
  | .groupChat => .done

/-- The rows of the transaction, if every record parses and every `INSERT` is accepted. -/
def insertRows (chat : Chat) (cachedMessages : List Entry) : Option (List Row) := do
  let inserted ← (batches cachedMessages).mapM fun batch =>
    batch.mapM fun e => (insertedRow chat (e.record.json chat)).map (Row.mk e.no)
  return inserted.flatten

/-- A step of the flush `i`. A batch that is refused rolls the transaction back. -/
def flushStep (s : State) (i : ℕ) : Flush → Option State
  | .lrange chat =>
    let cachedMessages := lrange (s.redis chat) 0 (-1)
    let flush := if cachedMessages.isEmpty then Flush.next chat else .ltrim chat cachedMessages
    some { s with flushes := s.flushes.set i flush }
  | .ltrim chat cachedMessages =>
    some { s with
      redis := Function.update s.redis chat (ltrim (s.redis chat) 1 0)
      flushes := s.flushes.set i (.insert chat cachedMessages) }
  | .insert chat cachedMessages =>
    some { s with
      table := Function.update s.table chat (s.table chat ++ (insertRows chat cachedMessages).getD [])
      flushes := s.flushes.set i (Flush.next chat) }
  | .done => none

def machine : Machine State Act where
  step s
    | .store chat record =>
      let e : Entry := ⟨s.next, record⟩
      some { s with
        redis := Function.update s.redis chat (s.redis chat ++ [e])
        stored := Function.update s.stored chat (s.stored chat ++ [e])
        next := s.next + 1 }
    | .flushCacheToDatabase => some { s with flushes := s.flushes ++ [.lrange .privateChat] }
    | .work i => s.flushes[i]?.bind (flushStep s i)

/-! ## Exactly once -/

/-- All flushes have finished. -/
def State.Finished (s : State) : Prop := ∀ f ∈ s.flushes, f = .done

/-- The stored messages are distinct, and each is in its list or its table, once in all. -/
def State.ExactlyOnce (s : State) : Prop :=
  ∀ chat, ((s.stored chat).map Entry.no).Nodup ∧
    ((s.redis chat).map Entry.row ++ s.table chat).Perm ((s.stored chat).map Entry.row)

/-- The list a flush has read and not yet trimmed. -/
def Flush.window (chat : Chat) : Flush → List (List Entry)
  | .ltrim chat' cachedMessages => if chat' = chat then [cachedMessages] else []
  | _ => []

/-- What a flush has trimmed and not yet inserted. -/
def Flush.inFlight (chat : Chat) : Flush → List Entry
  | .insert chat' cachedMessages => if chat' = chat then cachedMessages else []
  | _ => []

def State.windows (s : State) (chat : Chat) : List (List Entry) := s.flushes.flatMap (Flush.window chat)

def State.inFlight (s : State) (chat : Chat) : List Entry := s.flushes.flatMap (Flush.inFlight chat)

/-- No message is stored in a list, and no flush reads it, between the `LRANGE` of a flush and its `LTRIM`. -/
def Isolated (s : State) : Act → Prop
  | .store chat _ => s.windows chat = []
  | .flushCacheToDatabase => True
  | .work i =>
    match s.flushes[i]? with
    | some (.lrange chat) => s.windows chat = []
    | _ => True

/-- The invariant of one list: what was read from it is still there, list, flushes and table hold what was
stored, and the numbers tell the messages apart. -/
structure ChatInv (next : ℕ) (windows : List (List Entry)) (redis inFlight : List Entry) (table : List Row)
    (stored : List Entry) : Prop where
  window : windows = [] ∨ windows = [redis]
  conserved : (redis.map Entry.row ++ inFlight.map Entry.row ++ table).Perm (stored.map Entry.row)
  lt_next : ∀ e ∈ stored, e.no < next
  nodup : (stored.map Entry.no).Nodup

def Inv (s : State) : Prop :=
  ∀ c, ChatInv s.next (s.windows c) (s.redis c) (s.inFlight c) (s.table c) (s.stored c)

theorem inv_init : Inv init := fun _ => ⟨Or.inl rfl, .nil, fun _ he => absurd he (by simp [init]), List.nodup_nil⟩

theorem mapM_some {α β : Type*} {f : α → Option β} {g : α → β} (h : ∀ a, f a = some (g a)) (l : List α) :
    l.mapM f = some (l.map g) := by
  obtain rfl : f = fun a => pure (g a) := funext h
  exact List.mapM_pure

/-- No record is refused: the transaction inserts them all. -/
theorem insertRows_eq (chat : Chat) (cachedMessages : List Entry) :
    insertRows chat cachedMessages = some (cachedMessages.map Entry.row) := by
  have hentry : ∀ e : Entry, (insertedRow chat (e.record.json chat)).map (Row.mk e.no) = some e.row := by
    intro e
    rw [insertedRow_json]
    rfl
  rw [insertRows, mapM_some (mapM_some hentry)]
  simp only [Option.bind_eq_bind, Option.bind_some, Option.pure_def, ← List.map_flatten, flatten_batches]

/-! ### Every step keeps the invariant -/

namespace ChatInv

variable {next : ℕ} {windows : List (List Entry)} {redis inFlight : List Entry} {table : List Row}
  {stored : List Entry}

theorem store (h : ChatInv next [] redis inFlight table stored) (record : ChatRecord) :
    ChatInv (next + 1) [] (redis ++ [⟨next, record⟩]) inFlight table (stored ++ [⟨next, record⟩]) where
  window := Or.inl rfl
  conserved := by
    have hperm := h.conserved.append_right [Entry.row ⟨next, record⟩]
    simp only [List.map_append, List.map_cons, List.map_nil]
    refine List.Perm.trans ?_ hperm
    simp only [List.append_assoc]
    exact (List.perm_append_comm.trans (by simp)).append_left _
  lt_next e he := by
    rcases List.mem_append.1 he with he | he
    · exact Nat.lt_succ_of_lt (h.lt_next e he)
    · obtain rfl := List.mem_singleton.1 he
      exact Nat.lt_succ_self _
  nodup := by
    rw [List.map_append, List.nodup_append]
    refine ⟨h.nodup, by simp, ?_⟩
    intro n hold m hnew
    obtain ⟨e, he, rfl⟩ := List.mem_map.1 hold
    have hlt := h.lt_next e he
    obtain rfl : m = next := by simpa using hnew
    exact Nat.ne_of_lt hlt

theorem succ (h : ChatInv next windows redis inFlight table stored) :
    ChatInv (next + 1) windows redis inFlight table stored where
  window := h.window
  conserved := h.conserved
  lt_next e he := Nat.lt_succ_of_lt (h.lt_next e he)
  nodup := h.nodup

theorem lrange (h : ChatInv next [] redis inFlight table stored) :
    ChatInv next [redis] redis inFlight table stored where
  window := Or.inr rfl
  conserved := h.conserved
  lt_next := h.lt_next
  nodup := h.nodup

/-- What is trimmed is what was read. -/
theorem ltrim {p q : List (List Entry)} {p' q' cachedMessages : List Entry}
    (h : ChatInv next (p ++ [cachedMessages] ++ q) redis (p' ++ q') table stored) :
    ChatInv next (p ++ q) [] (p' ++ cachedMessages ++ q') table stored := by
  obtain ⟨rfl, rfl, rfl⟩ : p = [] ∧ cachedMessages = redis ∧ q = [] := by
    rcases h.window with hw | hw
    · exact absurd hw (by simp)
    · have hlen := congrArg List.length hw
      simp only [List.length_append, List.length_cons, List.length_nil] at hlen
      obtain rfl : p = [] := List.length_eq_zero_iff.1 (by omega)
      obtain rfl : q = [] := List.length_eq_zero_iff.1 (by omega)
      exact ⟨rfl, (List.cons.inj hw).1, rfl⟩
  refine ⟨Or.inl rfl, List.Perm.trans ?_ h.conserved, h.lt_next, h.nodup⟩
  simp only [List.map_append, List.map_nil, List.nil_append, ← List.append_assoc]
  exact (List.perm_append_comm.append_right _).append_right _

theorem insert {p' q' cachedMessages : List Entry}
    (h : ChatInv next windows redis (p' ++ cachedMessages ++ q') table stored) :
    ChatInv next windows redis (p' ++ q') (table ++ cachedMessages.map Entry.row) stored := by
  refine ⟨h.window, List.Perm.trans ?_ h.conserved, h.lt_next, h.nodup⟩
  simp only [List.map_append, List.append_assoc]
  refine (List.Perm.append_left _ ?_).append_left _
  rw [← List.append_assoc]
  exact List.perm_append_comm

end ChatInv

@[simp] theorem window_next (chat c : Chat) : (Flush.next chat).window c = [] := by
  cases chat <;> rfl

@[simp] theorem inFlight_next (chat c : Chat) : (Flush.next chat).inFlight c = [] := by
  cases chat <;> rfl

/-- A step of the flush `i` moves what that flush has read, and nothing else that is on its way. -/
theorem collect_set {s : State} {i : ℕ} {f : Flush} (hf : s.flushes[i]? = some f) (c : Chat) :
    ∃ p q p' q', s.windows c = p ++ f.window c ++ q ∧ s.inFlight c = p' ++ f.inFlight c ++ q' ∧
      ∀ g : Flush, (s.flushes.set i g).flatMap (Flush.window c) = p ++ g.window c ++ q ∧
        (s.flushes.set i g).flatMap (Flush.inFlight c) = p' ++ g.inFlight c ++ q' := by
  obtain ⟨p, q, hwindow, hset⟩ := exists_flatMap_set hf (Flush.window c)
  obtain ⟨p', q', hflight, hset'⟩ := exists_flatMap_set hf (Flush.inFlight c)
  exact ⟨p, q, p', q', hwindow, hflight, fun g => ⟨hset g, hset' g⟩⟩

theorem inv_work {s t : State} {i : ℕ} (hok : Isolated s (.work i))
    (hst : machine.step s (.work i) = some t) (h : Inv s) : Inv t := by
  obtain ⟨f, hf, hst⟩ := Option.bind_eq_some_iff.1 hst
  simp only [Isolated, hf] at hok
  intro c
  obtain ⟨p, q, p', q', hwindow, hflight, hset⟩ := collect_set hf c
  have hc := h c
  rw [hwindow, hflight] at hc
  cases f with
  | lrange chat =>
    obtain rfl := Option.some.inj hst
    simp only [State.windows, State.inFlight, hset, lrange_all]
    split
    · rw [window_next, inFlight_next]
      exact hc
    · by_cases heq : chat = c
      · subst heq
        rw [hok] at hwindow
        obtain ⟨rfl, -, rfl⟩ : p = [] ∧ (Flush.lrange chat).window chat = [] ∧ q = [] := by
          simpa using hwindow.symm
        simpa [Flush.window, Flush.inFlight] using ChatInv.lrange hc
      · simpa [Flush.window, Flush.inFlight, heq] using hc
  | ltrim chat cachedMessages =>
    obtain rfl := Option.some.inj hst
    simp only [State.windows, State.inFlight, hset, ltrim_clear]
    by_cases heq : chat = c
    · subst heq
      simp only [Flush.window, Flush.inFlight, if_true, List.append_nil] at hc
      simpa [Flush.window, Flush.inFlight] using hc.ltrim
    · simpa [Flush.window, Flush.inFlight, heq, Function.update_of_ne (Ne.symm heq)] using hc
  | insert chat cachedMessages =>
    obtain rfl := Option.some.inj hst
    simp only [State.windows, State.inFlight, hset, insertRows_eq, Option.getD_some, window_next, inFlight_next]
    by_cases heq : chat = c
    · subst heq
      simp only [Flush.window, Flush.inFlight, if_true] at hc
      simpa using hc.insert
    · simpa [Flush.window, Flush.inFlight, heq, Function.update_of_ne (Ne.symm heq)] using hc
  | done => exact absurd hst (by simp [flushStep])

/-- **Every isolated step keeps the invariant.** -/
theorem inv_step (s : State) (a : Act) (t : State) (hok : Isolated s a) (hst : machine.step s a = some t)
    (h : Inv s) : Inv t := by
  cases a with
  | store chat record =>
    obtain rfl := Option.some.inj hst
    intro c
    have hc := h c
    by_cases heq : chat = c
    · subst heq
      have hok : s.windows chat = [] := hok
      rw [hok] at hc
      have hstore := hc.store record
      rw [← hok] at hstore
      simpa [State.windows, State.inFlight] using hstore
    · simpa [State.windows, State.inFlight, Function.update_of_ne (Ne.symm heq)] using hc.succ
  | flushCacheToDatabase =>
    obtain rfl := Option.some.inj hst
    intro c
    simpa [State.windows, State.inFlight, Flush.window, Flush.inFlight] using h c
  | work i => exact inv_work hok hst h

theorem inFlight_eq_nil {s : State} (h : s.Finished) (c : Chat) : s.inFlight c = [] := by
  refine List.flatMap_eq_nil_iff.2 fun f hf => ?_
  rw [h f hf]
  rfl

/-! ## What every run keeps -/

/-- **Exactly once**: in every run whose steps are isolated, each stored message is in its list or its table
when the flushes have finished, and only once. -/
theorem exactlyOnce_of_isolated (acts : List Act) (s : State) (hrun : machine.Run Isolated init acts s)
    (hfinished : s.Finished) : s.ExactlyOnce := by
  have hinv := hrun.invariant inv_step inv_init
  intro chat
  have hconserved := (hinv chat).conserved
  rw [inFlight_eq_nil hfinished, List.map_nil, List.append_nil] at hconserved
  exact ⟨(hinv chat).nodup, hconserved⟩

/-- A message by number. -/
def sample (n : ℤ) : ChatRecord := ⟨1, n, "it's", ⟨"2024-08-12 10:00:00", plain_morning⟩⟩

/-- Two flushes one after the other, with a store in between and one after them. -/
theorem exactlyOnce_two_flushes :
    ∃ acts s, machine.Run Isolated init acts s ∧ s.Finished ∧ s.ExactlyOnce ∧
      (s.redis .privateChat).map Entry.no = [2] ∧ (s.table .privateChat).map Row.no = [0, 1] := by
  have hrun : ∃ s, machine.Run Isolated init
      [.store .privateChat (sample 0), .flushCacheToDatabase, .work 0, .work 0, .store .privateChat (sample 1),
        .work 0, .work 0, .flushCacheToDatabase, .work 1, .work 1, .work 1, .work 1,
        .store .privateChat (sample 2)] s ∧
      s.Finished ∧ (s.redis .privateChat).map Entry.no = [2] ∧ (s.table .privateChat).map Row.no = [0, 1] := by
    refine ⟨_, .cons rfl rfl <| .cons trivial rfl <| .cons rfl rfl <| .cons trivial rfl <| .cons rfl rfl <|
      .cons trivial rfl <| .cons rfl rfl <| .cons trivial rfl <| .cons rfl rfl <| .cons trivial rfl <|
      .cons trivial rfl <| .cons rfl rfl <| .cons rfl rfl <| .nil _, ?_, rfl, rfl⟩
    simp [State.Finished, init, Flush.next, lrange_all]
  obtain ⟨s, hrun, hfinished, hnos⟩ := hrun
  exact ⟨_, s, hrun, hfinished, exactlyOnce_of_isolated _ s hrun hfinished, hnos⟩

/-- A message pushed between the `LRANGE` of a flush and its `LTRIM` is trimmed and never inserted. -/
theorem store_between_lrange_and_ltrim :
    ∃ s, machine.Run (fun _ _ => True) init
        [.store .privateChat (sample 0), .flushCacheToDatabase, .work 0, .store .privateChat (sample 1),
          .work 0, .work 0, .work 0] s ∧
      s.Finished ∧ ¬ s.ExactlyOnce := by
  refine ⟨_, Machine.run_of_exec rfl, by simp [State.Finished, init, Flush.next, lrange_all], ?_⟩
  intro h
  exact absurd (h .privateChat).2.length_eq (by decide)

end Chatroom.History
