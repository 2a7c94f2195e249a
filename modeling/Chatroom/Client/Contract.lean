import Chatroom.Client.Answers
import Chatroom.Service.Requests

/-!
# The two sides understand each other

What each side sends is written and read back as it was, and the other side finds the fields it looks for: nothing that
the server sends has the client throw an exception of the JSON library, and nothing that a client asks has the server
throw one.
-/

namespace Chatroom.Client

open Lib Json Service

/-- **The client reads whatever the server sends**: in every run, from whatever connections and in whatever order the
requests come, and whatever they hold. -/
theorem read_of_run {env : Environment} (hos : ∀ k, (env.os k).size < 2 ^ 64) {n : ℕ} {w : World} (hw : Ranged w)
    {l : List (Pool.Action Service.Activity)} {s : Threads}
    (h : (server env).Run (fun s _ => IdsFit s.shared.db) (Pool.start n w) l s) (strtod : Strtod) {conn : Conn} {js : Json}
    (hsent : (conn, js) ∈ s.shared.sent) :
    (∃ m, Conforms (replyFormat m) js) ∧ (nlohmann strtod).Faithful js ∧
      ∃ effects, Replies.onJsonMessage (nlohmann strtod) js = .ok effects := by
  have hstep : ∀ s a t, IdsFit s.shared.db → (server env).step s a = some t → SendsFormatted s → SendsFormatted t :=
    fun s a t hids hst => sendsFormatted_step hos hids hst
  have hformatted := h.invariant hstep (sendsFormatted_start hw)
  obtain ⟨m, hm⟩ := hformatted.1.sent _ hsent
  exact ⟨⟨m, hm⟩, faithful_nlohmann (hm.valid (sorted_replyFormat m)), Replies.onJsonMessage_of_conforms strtod hm⟩

/-- A client registers, and the server's answer to it is read. -/
theorem read_of_run_reg : ∃ s, (server .still).Run (fun s _ => IdsFit s.shared.db) (Pool.start 1 (.init .empty))
    [.enqueue (.request 1 EnMsgType.regMsg.code (.obj [("msgid", .msg .regMsg), ("name", .str "ann"),
      ("password", .str "secret")]) ""), .dequeue 0, .work 0, .work 0] s ∧
    ∃ effects, Replies.onJsonMessage (nlohmann fun _ => none) (.obj [("id", .num 3), ("msgid", .msg .regSuccess)]) =
      .ok effects := by
  obtain ⟨s, hs, hsent⟩ : ∃ s, (server .still).execIf (fun s _ => IdsFit s.shared.db) (Pool.start 1 (.init .empty))
      [.enqueue (.request 1 EnMsgType.regMsg.code (.obj [("msgid", .msg .regMsg), ("name", .str "ann"),
        ("password", .str "secret")]) ""), .dequeue 0, .work 0, .work 0] = some s ∧
      s.shared.sent = [(1, .obj [("id", .num 3), ("msgid", .msg .regSuccess)])] := ⟨_, rfl, rfl⟩
  have hrun := Machine.run_of_execIf hs
  have hmem : (1, .obj [("id", .num 3), ("msgid", .msg .regSuccess)]) ∈ s.shared.sent := hsent ▸ List.mem_singleton_self _
  exact ⟨s, hrun, (read_of_run (by simp [Environment.still]) ranged_empty hrun (fun _ => none) hmem).2.2⟩

/-- **The server reads whatever a client asks**: whatever the user enters, and whatever the client was sent. What
`JsonCodec` keeps for itself has the file's name and size. -/
theorem served_of_run {lib : JsonLib} {passwordToSha256 : String → String} {ok : Process → Process.Action → Prop}
    {l : List Process.Action} {p : Process} (h : (Process.machine lib passwordToSha256).Run ok .init l p)
    (strtod : Strtod) {r : Request} (hr : r ∈ p.requests) :
    (nlohmann strtod).Faithful r.js ∧ r.js.intField "msgid" = .ok r.msgid.code ∧
      (∀ conn time, Served (getHandler r.msgid.code conn r.js time)) ∧
      (r.msgid = .sendFile → ∃ filename fileSize, r.js.stringField "filename" = .ok filename ∧
        r.js.sizeField "filesize" = .ok fileSize) := by
  have hformat : Conforms (requestFormat r.msgid) r.js := Process.formatted_of_run h r hr
  refine ⟨faithful_nlohmann (hformat.valid (sorted_requestFormat _)), hformat.msgid (lookup_msgid_requestFormat _),
    fun conn time => served_getHandler conn time hformat, fun hfile => ?_⟩
  rw [hfile] at hformat
  obtain ⟨filename, hfilename⟩ := hformat.string "filename" rfl
  obtain ⟨fileSize, hfileSize⟩ := hformat.size "filesize" rfl
  exact ⟨filename, fileSize, hfilename, hfileSize⟩

/-- Ann registers, and the server has no exception for her request. -/
theorem served_of_run_reg : ∃ p, (Process.machine (nlohmann fun _ => none) id).Run (fun _ _ => True) .init
    (["", "1", "ann", "secret", "secret", ""].map fun word => .user ⟨word, 1, none, true, none⟩) p ∧
    ∃ r ∈ p.requests, r.msgid = .regMsg ∧ Served (getHandler EnMsgType.regMsg.code 1 r.js "") := by
  obtain ⟨p, hp, hrequests⟩ : ∃ p, (Process.machine (nlohmann fun _ => none) id).exec .init
      (["", "1", "ann", "secret", "secret", ""].map fun word => .user ⟨word, 1, none, true, none⟩) = some p ∧
      p.requests = [⟨.regMsg, .obj [("msgid", .msg .regMsg), ("name", .str "ann"), ("password", .str "secret")]⟩] :=
    ⟨_, rfl, rfl⟩
  have hrun := Machine.run_of_exec hp
  have hmem : _ ∈ p.requests := hrequests ▸ List.mem_singleton_self _
  exact ⟨p, hrun, _, hmem, rfl, (served_of_run hrun (fun _ => none) hmem).2.2.1 1 ""⟩

end Chatroom.Client
