import Mathlib.Data.String.Basic
import Chatroom.Lib.Latest
import Chatroom.Service.Handlers

/-!
# The messages that a history shows

`HistoryModel` asks for the latest rows by their time, which has seconds only, and leaves the order of the rows of one
second to the server. A history is the end of the conversation, in the order in which it was inserted, exactly when each
of its messages is later than all messages before it (`history_in_order_iff`).
-/

namespace Chatroom.Service

open Lib History

/-! ## The queries, with ties in any order -/

/-- What `ORDER BY timestamp DESC` makes of the rows. -/
structure OrderBy where
  sort : List ChatHistory → List ChatHistory
  perm : ∀ rows, (sort rows).Perm rows
  desc : ∀ rows, Desc ChatHistory.sendTime (sort rows)

/-- Rows with one time stay as they were inserted. -/
def OrderBy.stable : OrderBy where
  sort rows := rows.mergeSort fun a b => decide (b.sendTime ≤ a.sendTime)
  perm rows := List.mergeSort_perm rows _
  desc rows := desc_mergeSort ChatHistory.sendTime rows

/-- The rows between two users. -/
def Db.privateConversation (db : Db) (senderId receiverId : ℤ) : List ChatHistory :=
  db.privateChatHistory.filter fun h =>
    (h.id₁ = senderId ∧ h.id₂ = receiverId) ∨ (h.id₁ = receiverId ∧ h.id₂ = senderId)

/-- The rows of a group. -/
def Db.groupConversation (db : Db) (groupId : ℤ) : List ChatHistory :=
  db.groupChatHistory.filter fun h => h.id₁ = groupId

/-- `exec`, on a server that sorts in this way. -/
def execOrdered (env : Environment) (order : OrderBy) (c : Cmd) (w : World) : Ans c × World :=
  match c with
  | .queryPrivateHistory senderId receiverId count =>
    ((order.sort (w.db.privateConversation senderId receiverId)).take count, w)
  | .queryGroupHistory groupId count => ((order.sort (w.db.groupConversation groupId)).take count, w)
  | c => exec env c w

/-- The commands are carried out by such a server. -/
theorem execOrdered_stable (env : Environment) (c : Cmd) (w : World) :
    execOrdered env .stable c w = exec env c w := by
  cases c <;> rfl

/-! ## The responses -/

def privateEntry (history : ChatHistory) : Json :=
  dumped [("from", .num history.id₁), ("msg", .str history.message), ("time", .str history.sendTime),
    ("to", .num history.id₂)]

def groupEntry (history : ChatHistory) : Json :=
  dumped [("from", .num history.id₂), ("groupid", .num history.id₁), ("msg", .str history.message),
    ("time", .str history.sendTime)]

def privateHistory (messages : List ChatHistory) : Json :=
  .obj [("history", .arr (messages.map privateEntry)), ("msgid", .msg .displayPrivateHistory)]

def groupHistory (messages : List ChatHistory) : Json :=
  .obj [("history", .arr (messages.map groupEntry)), ("msgid", .msg .displayGroupHistory)]

theorem privateEntry_injective : Function.Injective privateEntry := by
  intro a b h
  have htext := String.ofList_injective (Json.str.inj h)
  simp only [Json.text, Json.textFields, List.append_assoc, List.cons_append, List.cons.injEq,
    true_and, Json.quote_append_inj, Json.toString_append_inj (c := ',') (by decide),
    Json.toString_append_inj (c := '\x7d') (by decide)] at htext
  cases a
  cases b
  simp_all

theorem groupEntry_injective : Function.Injective groupEntry := by
  intro a b h
  have htext := String.ofList_injective (Json.str.inj h)
  simp only [Json.text, Json.textFields, List.append_assoc, List.cons_append, List.cons.injEq,
    true_and, Json.quote_append_inj, Json.toString_append_inj (c := ',') (by decide)] at htext
  cases a
  cases b
  simp_all

theorem privateHistory_injective : Function.Injective privateHistory := by
  intro l l' h
  simp only [privateHistory, Json.obj.injEq, List.cons.injEq, Prod.mk.injEq, Json.arr.injEq] at h
  exact List.map_injective_iff.2 privateEntry_injective h.1.2

theorem groupHistory_injective : Function.Injective groupHistory := by
  intro l l' h
  simp only [groupHistory, Json.obj.injEq, List.cons.injEq, Prod.mk.injEq, Json.arr.injEq] at h
  exact List.map_injective_iff.2 groupEntry_injective h.1.2

section Run

variable (env : Environment) (order : OrderBy) (w : World) (conn : Conn) (js : Json) (time : String)

/-- The rows that the query returns are sent backwards. -/
theorem run_handleDisplayPrivateHistory {friendid : ℤ} (hfriend : js.intField "id" = .ok friendid) :
    ((handleDisplayPrivateHistory conn js time).run (execOrdered env order) w).2.sent = w.sent ++ [(conn,
      privateHistory ((order.sort (w.db.privateConversation (w.userOf conn) friendid)).take 50).reverse)] := by
  unfold handleDisplayPrivateHistory
  rw [hfriend, privateHistory, List.map_reverse]
  rfl

theorem run_handleDisplayGroupHistory {groupid : ℤ} (hgroup : js.intField "groupid" = .ok groupid) :
    ((handleDisplayGroupHistory conn js time).run (execOrdered env order) w).2.sent = w.sent ++ [(conn,
      groupHistory ((order.sort (w.db.groupConversation groupid)).take 50).reverse)] := by
  unfold handleDisplayGroupHistory
  rw [hgroup, groupHistory, List.map_reverse]
  rfl

end Run

/-! ## The end of the conversation -/

/-- The last `count` messages, or all of them. -/
def lastMessages (count : ℕ) (messages : List ChatHistory) : List ChatHistory :=
  messages.drop (messages.length - count)

/-- Whatever the order of ties, the rows of the query are the last messages, backwards, exactly when those come later. -/
theorem forall_orderBy_iff (count : ℕ) (rows : List ChatHistory) :
    (∀ order : OrderBy, ((order.sort rows).take count).reverse = lastMessages count rows) ↔
      Later ChatHistory.sendTime count rows := by
  rw [← take_eq_iff]
  have hlast : lastMessages count rows = (rows.reverse.take count).reverse := by
    rw [List.take_reverse, List.reverse_reverse, lastMessages]
  rw [hlast]
  constructor
  · classical
    intro h l hl hdesc
    -- a server that lists these rows in this order
    let order : OrderBy := {
      sort r := if r = rows then l else OrderBy.stable.sort r
      perm r := by
        split
        case isTrue hr => exact hr ▸ hl
        case isFalse => exact OrderBy.stable.perm r
      desc r := by
        split
        case isTrue => exact hdesc
        case isFalse => exact OrderBy.stable.desc r }
    have horder := List.reverse_injective (h order)
    rwa [show order.sort rows = l from if_pos rfl] at horder
  · intro h order
    rw [h _ (order.perm rows) (order.desc rows)]

/-- **A history is the end of the conversation in order**, whatever the order in which rows of one second are returned,
exactly when each of its messages is later than all messages before it (or the same). -/
theorem history_in_order_iff (env : Environment) (w : World) (conn : Conn) (js : Json) (time : String) :
    (∀ friendid, js.intField "id" = .ok friendid →
      let conversation := w.db.privateConversation (w.userOf conn) friendid
      ((∀ order, ((handleDisplayPrivateHistory conn js time).run (execOrdered env order) w).2.sent =
          w.sent ++ [(conn, privateHistory (lastMessages 50 conversation))]) ↔
        Later ChatHistory.sendTime 50 conversation)) ∧
      ∀ groupid, js.intField "groupid" = .ok groupid →
        let conversation := w.db.groupConversation groupid
        ((∀ order, ((handleDisplayGroupHistory conn js time).run (execOrdered env order) w).2.sent =
            w.sent ++ [(conn, groupHistory (lastMessages 50 conversation))]) ↔
          Later ChatHistory.sendTime 50 conversation) := by
  have hsent : ∀ js js' : Json, w.sent ++ [(conn, js)] = w.sent ++ [(conn, js')] ↔ js = js' := by simp
  constructor
  · intro friendid hfriend
    simp only [run_handleDisplayPrivateHistory _ _ _ _ _ _ hfriend, hsent, privateHistory_injective.eq_iff,
      forall_orderBy_iff]
  · intro groupid hgroup
    simp only [run_handleDisplayGroupHistory _ _ _ _ _ _ hgroup, hsent, groupHistory_injective.eq_iff,
      forall_orderBy_iff]

/-- Ann, on connection 1, has written to bob twice, at these times; and in group 7 as well. -/
def wroteAt (first second : String) : World :=
  { World.init { annAndBob with
      privateChatHistory := [⟨3, 4, "one", first⟩, ⟨3, 4, "two", second⟩]
      groupChatHistory := [⟨7, 3, "one", first⟩, ⟨7, 3, "two", second⟩] } with
    connUserMap := fun _ => some 3 }

theorem history_in_order_of_later :
    let w := wroteAt "2024-08-12 10:00:00" "2024-08-12 10:00:01"
    (∀ order, ((handleDisplayPrivateHistory 1 (.obj [("id", .num 4)]) "").run (execOrdered .still order) w).2.sent =
        [(1, privateHistory [⟨3, 4, "one", "2024-08-12 10:00:00"⟩, ⟨3, 4, "two", "2024-08-12 10:00:01"⟩])]) ∧
      ∀ order, ((handleDisplayGroupHistory 1 (.obj [("groupid", .num 7)]) "").run (execOrdered .still order) w).2.sent =
        [(1, groupHistory [⟨7, 3, "one", "2024-08-12 10:00:00"⟩, ⟨7, 3, "two", "2024-08-12 10:00:01"⟩])] := by
  intro w
  have hlater : ∀ a b : ChatHistory, a.sendTime < b.sendTime → Later ChatHistory.sendTime 50 [a, b] := by
    intro a b hab
    rw [show [a, b] = [a] ++ [b] from rfl, later_concat, show [a] = [] ++ [a] from rfl, later_concat]
    exact ⟨fun y hy => .inl (List.mem_singleton.1 hy ▸ hab), by simp, later_nil _⟩
  refine ⟨((history_in_order_iff .still w 1 _ "").1 4 rfl).2 (hlater _ _ ?_),
    ((history_in_order_iff .still w 1 _ "").2 7 rfl).2 (hlater _ _ ?_)⟩
  · decide
  · decide

/-- Two messages of one second can be shown in the wrong order. -/
theorem history_out_of_order :
    let w := wroteAt "2024-08-12 10:00:00" "2024-08-12 10:00:00"
    ¬∀ order, ((handleDisplayPrivateHistory 1 (.obj [("id", .num 4)]) "").run (execOrdered .still order) w).2.sent =
      [(1, privateHistory [⟨3, 4, "one", "2024-08-12 10:00:00"⟩, ⟨3, 4, "two", "2024-08-12 10:00:00"⟩])] := by
  intro w h
  have hall : ∀ order : OrderBy, ((order.sort (w.db.privateConversation 3 4)).take 50).reverse =
      lastMessages 50 (w.db.privateConversation 3 4) := by
    intro order
    have hsent := h order
    rw [run_handleDisplayPrivateHistory _ _ _ _ _ _ (by rfl : Json.intField _ "id" = .ok 4)] at hsent
    exact privateHistory_injective (Prod.mk.inj (List.singleton_inj.1 hsent)).2
  have hlater := (forall_orderBy_iff _ _).1 hall [⟨3, 4, "one", "2024-08-12 10:00:00"⟩] _ [] rfl (by decide) _
    (List.mem_singleton_self _)
  simp at hlater

end Chatroom.Service
