import Chatroom.Client.ClientService
import Chatroom.Service.Attribution

/-!
# A client and the server: whose answer `privateChat` takes

One client on a connection, and the server with everything that comes from other connections. The answer to a
CHECK_BLOCK carries nothing that says which request it belongs to, the server sends it to the peer as well, and the
client asks again by itself after BLOCK_FRIEND_SUCCESS and UNBLOCK_FRIEND_SUCCESS; each message posts the semaphore
on which `privateChat` waits. The call takes its own answer when no other CHECK_BLOCK comes in
(`ownAnswer_of_run`), and goes on with an answer about somebody else when one did (`others_answer`).
-/

namespace Chatroom.Client

open Lib Service

structure System where
  /-- the server -/
  threads : Threads
  client : Client
  /-- for each request of the client the task that handles it, once the server has read it -/
  tasks : ℕ → Option ℕ
  /-- for each message of the server the task that sent it; `none` for the loops -/
  senders : List (Option ℕ)
  /-- the number of the first message that the client has not come to -/
  received : ℕ

namespace System

inductive Action where
  | user (a : UserAction)
  | network
  /-- the client's event loop reads message `p` of the server -/
  | receive (p : ℕ)
  /-- the server reads request `r` of the client -/
  | arrive (r : ℕ) (time : String)
  /-- the server's pool and loops go on, or a message comes from another connection -/
  | server (a : Pool.Action Activity)

/-- The client starts, and the server is in some state. -/
def start (threads : Threads) : System :=
  ⟨threads, .init, fun _ => none, threads.shared.sent.map fun _ => none, threads.shared.sent.length⟩

/-- The task whose worker takes the step. -/
def sender (s : Threads) : Pool.Action Activity → Option ℕ
  | .work i => s.workers[i]?.join.map Prod.fst
  | _ => none

/-- Requests on the client's connection come from the client only. -/
def elsewhere (conn : Conn) : Pool.Action Activity → Bool
  | .enqueue (.request d _ _ _) => d ≠ conn
  | _ => true

variable (env : Environment) (conn : Conn)

def step (s : System) : Action → Option System
  | .user a => (s.client.userStep a).map fun client => { s with client }
  | .network => if s.client.user = .exited then none else s.client.networkStep.map fun client => { s with client }
  | .receive p =>
    match s.threads.shared.sent[p]? with
    | some (d, js) =>
      if d = conn ∧ s.client.user ≠ .exited ∧ s.client.network = [] ∧ s.received ≤ p ∧
          ((s.threads.shared.sent.drop s.received).take (p - s.received)).all fun m => m.1 ≠ conn then
        some { s with client := { s.client with network := handleServerMessage p js }, received := p + 1 }
      else none
    | none => none
  | .arrive r time =>
    match s.client.requests[r]?, s.tasks r with
    | some request, none =>
      ((server env).step s.threads (.enqueue (.request conn request.msgid.code request.js time))).map fun threads =>
        { s with threads, tasks := Function.update s.tasks r (some s.threads.arrivals.length) }
    | _, _ => none
  | .server a =>
    if elsewhere conn a then
      ((server env).step s.threads a).map fun threads =>
        { s with
          threads
          senders := s.senders ++
            List.replicate (threads.shared.sent.length - s.threads.shared.sent.length) (sender s.threads a) }
    else none

def machine : Machine System Action := ⟨step env conn⟩

/-! ## Answers -/

/-- Message `p` answers request `r`: it is the first that the task of the request sends. -/
def Answers (s : System) (r p : ℕ) : Prop :=
  ∃ k, s.tasks r = some k ∧ s.senders[p]? = some (some k) ∧ ∀ q < p, s.senders[q]? ≠ some (some k)

/-- Message `p` is a CHECK_BLOCK to the client. -/
def IsCheckBlock (s : System) (p : ℕ) (js : Json) : Prop :=
  s.threads.shared.sent[p]? = some (conn, js) ∧ js.intField "msgid" = .ok EnMsgType.checkBlock.code

/-- Both flags were set by message `p`. -/
structure SetBy (c : Client) (p : ℕ) (js : Json) : Prop where
  ifBlock : c.ifBlock = ⟨someState js "block", some p⟩
  ifFriend : c.ifFriend = ⟨someState js "friend" || someState js "block", some p⟩

/-- The request was about the user with this id, the flags were set by its answer, and there is no other post. -/
structure OwnAnswer (s : System) (id : ℤ) (r : ℕ) : Prop where
  count : s.client.semCheckIfBlock = 0
  request : s.client.requests[r]? = some (checkBlock id)
  task : ∃ k time, s.tasks r = some k ∧
    s.threads.arrivals[k]? = some (.request conn EnMsgType.checkBlock.code (checkBlock id).js time)
  flags : ∃ p js, s.Answers r p ∧ IsCheckBlock conn s p js ∧ SetBy s.client p js

/-- A CHECK_BLOCK is read only when it answers the request of the call that waits. -/
def Awaited (s : System) (a : Action) : Prop :=
  ∀ p js, a = .receive p → IsCheckBlock conn s p js →
    ∃ id r, s.client.user = .waiting id r ∧ s.Answers r p

/-! ## What a step leaves as it was -/

/-- Nothing is taken back. -/
structure Extends (s t : System) : Prop where
  requests : s.client.requests <+: t.client.requests
  tasks : ∀ r k, s.tasks r = some k → t.tasks r = some k
  senders : s.senders <+: t.senders
  sent : s.threads.shared.sent <+: t.threads.shared.sent
  arrivals : s.threads.arrivals <+: t.threads.arrivals
  received : s.received ≤ t.received

end System

/-- The variables of the check are the same. -/
structure SameCheck (c c' : Client) : Prop where
  network : c'.network = c.network
  ifBlock : c'.ifBlock = c.ifBlock
  ifFriend : c'.ifFriend = c.ifFriend
  semCheckIfBlock : c'.semCheckIfBlock = c.semCheckIfBlock

/-- Between the request of a call and the first test of the loop. -/
def UserThread.inCheck : UserThread → Bool
  | .waiting _ _ | .answered _ _ | .admitted _ _ => true
  | _ => false

/-- What a step of the user's thread does with the check. -/
inductive Turn (c c' : Client) : Prop where
  | other (hsame : SameCheck c c') (huser : c.user ≠ .exited ∧ ∀ id r, c.user ≠ .waiting id r)
      (huser' : c'.user.inCheck = false)
  | ask (id : ℤ) (huser : c.user = .choosing)
      (hc' : c' = { c.send (checkBlock id) with user := .waiting id c.requests.length })
  | take (id : ℤ) (r : ℕ) (huser : c.user = .waiting id r) (hposted : c.semCheckIfBlock ≠ 0)
      (hc' : c' = { c with semCheckIfBlock := c.semCheckIfBlock - 1, user := .answered id r })
  | enter (id : ℤ) (r : ℕ) (huser : c.user = .answered id r) (hc' : c' = { c with user := .admitted id r })

theorem turn_of_userStep {c c' : Client} {a : UserAction} (h : c.userStep a = some c') : Turn c c' := by
  unfold userStep at h
  split at h
  case h_1 huser =>
    obtain rfl := Option.some.inj h
    exact .other ⟨rfl, rfl, rfl, rfl⟩ (by simp [huser]) rfl
  case h_2 request huser =>
    split at h
    · cases h
    · obtain rfl := Option.some.inj h
      exact .other ⟨rfl, rfl, rfl, rfl⟩ (by simp [huser]) (by simp [send, huser, UserThread.inCheck])
  case h_3 huser =>
    split at h
    · cases h
    · obtain rfl := Option.some.inj h
      exact .other ⟨rfl, rfl, rfl, rfl⟩ (by simp [huser]) (by simp [huser, UserThread.inCheck])
  case h_4 huser =>
    obtain rfl := Option.some.inj h
    exact .other ⟨rfl, rfl, rfl, rfl⟩ (by simp [huser]) rfl
  case h_5 huser =>
    split at h
    · cases h
    · obtain rfl := Option.some.inj h
      exact .other ⟨rfl, rfl, rfl, rfl⟩ (by simp [huser]) rfl
  case h_6 id huser =>
    split at h
    · obtain rfl := Option.some.inj h
      exact .other ⟨rfl, rfl, rfl, rfl⟩ (by simp [huser]) rfl
    · exact .ask id huser (Option.some.inj h).symm
  case h_7 id r huser =>
    split at h
    case isTrue => cases h
    case isFalse hposted => exact .take id r huser hposted (Option.some.inj h).symm
  case h_8 id r huser =>
    obtain rfl := Option.some.inj h
    by_cases hfriend : c.ifFriend.value
    · rw [if_pos hfriend]
      exact .enter id r huser rfl
    · rw [if_neg hfriend]
      exact .other ⟨rfl, rfl, rfl, rfl⟩ (by simp [huser]) rfl
  case h_9 id r huser =>
    obtain rfl := Option.some.inj h
    refine .other ⟨rfl, rfl, rfl, rfl⟩ (by simp [huser]) ?_
    by_cases hblock : c.ifBlock.value <;> simp [hblock, UserThread.inCheck]
  case h_10 id display huser =>
    obtain rfl := Option.some.inj h
    exact .other ⟨rfl, rfl, rfl, rfl⟩ (by simp [huser]) (by cases display <;> rfl)
  case h_11 id huser =>
    obtain rfl := Option.some.inj h
    exact .other ⟨rfl, rfl, rfl, rfl⟩ (by simp [huser]) rfl
  case h_12 id msg huser =>
    split at h
    · obtain rfl := Option.some.inj h
      exact .other ⟨rfl, rfl, rfl, rfl⟩ (by simp [huser]) rfl
    · obtain rfl := Option.some.inj h
      exact .other ⟨rfl, rfl, rfl, rfl⟩ (by simp [huser]) rfl
  case h_13 id huser =>
    obtain rfl := Option.some.inj h
    refine .other ⟨rfl, rfl, rfl, rfl⟩ (by simp [huser]) ?_
    by_cases hblock : c.ifBlock.value <;> simp [hblock, UserThread.inCheck]
  case h_14 huser =>
    obtain rfl := Option.some.inj h
    exact .other ⟨rfl, rfl, rfl, rfl⟩ (by simp [huser]) rfl
  case h_15 => cases h

theorem requests_userStep {c c' : Client} {a : UserAction} (h : c.userStep a = some c') :
    c.requests <+: c'.requests := by
  unfold userStep at h
  split at h <;> (try split at h) <;> first | (cases h; done) | (obtain rfl := Option.some.inj h; simp [send])

/-- The steps that change what `privateChat` waits for and tests. -/
def NetworkStep.ofCheck : NetworkStep → Bool
  | .setIfBlock _ _ | .setIfFriend _ _ | .postCheckIfBlock => true
  | _ => false

def Quiet (c : Client) : Prop := ∀ x ∈ c.network, x.ofCheck = false

theorem requests_networkStep {c c' : Client} (h : c.networkStep = some c') : c.requests <+: c'.requests := by
  unfold networkStep at h
  split at h
  case h_1 => cases h
  all_goals
    obtain rfl := Option.some.inj h
    simp [send]

/-- A quiet step leaves the check as it is, or ends the process. -/
theorem Quiet.networkStep {c c' : Client} (hquiet : Quiet c) (h : c.networkStep = some c') :
    Quiet c' ∧ c'.ifBlock = c.ifBlock ∧ c'.ifFriend = c.ifFriend ∧ c'.semCheckIfBlock = c.semCheckIfBlock ∧
      (c'.user = c.user ∨ c'.user = .exited) := by
  unfold Client.networkStep at h
  split at h
  case h_1 => cases h
  case h_2 hnet | h_3 hnet | h_4 hnet =>
    obtain rfl := Option.some.inj h
    refine ⟨fun x hx => hquiet x ?_, rfl, rfl, rfl, .inl rfl⟩
    rw [hnet]
    exact List.mem_cons_of_mem _ hx
  case h_5 hnet | h_6 hnet | h_7 hnet =>
    have hhead := hquiet _ (hnet ▸ List.mem_cons_self ..)
    cases hhead
  case h_8 =>
    obtain rfl := Option.some.inj h
    exact ⟨nofun, rfl, rfl, rfl, .inr rfl⟩

theorem handleServerMessage_checkBlock {js : Json} (p : ℕ)
    (h : js.intField "msgid" = .ok EnMsgType.checkBlock.code) : handleServerMessage p js =
      [.setIfBlock (someState js "block") p, .setIfFriend (someState js "friend") p, .postCheckIfBlock] := by
  simp [handleServerMessage, h]

theorem quiet_handleServerMessage {js : Json} (p : ℕ)
    (h : js.intField "msgid" ≠ .ok EnMsgType.checkBlock.code) :
    ∀ x ∈ handleServerMessage p js, x.ofCheck = false := by
  unfold handleServerMessage
  split
  case h_1 => simp [NetworkStep.ofCheck]
  case h_2 msgid hid =>
    have hne : msgid ≠ EnMsgType.checkBlock.code := by
      rintro rfl
      exact h hid
    rw [if_neg hne]
    split
    · split <;> simp [NetworkStep.ofCheck]
    · split
      · simp [NetworkStep.ofCheck]
      · split
        · simp [NetworkStep.ofCheck]
        · split <;> simp [NetworkStep.ofCheck]

namespace System

variable {env : Environment} {conn : Conn} {s t : System} {a : Action}

theorem grows_of_step {s t : Threads} {a : Pool.Action Activity} (h : (Service.server env).step s a = some t) :
    s.shared.sent <+: t.shared.sent ∧ s.arrivals <+: t.arrivals := by
  cases Pool.steps_of_step _ _ h with
  | enqueue task => exact ⟨List.prefix_rfl, List.prefix_append ..⟩
  | dequeue | finish | spawn => exact ⟨List.prefix_rfl, List.prefix_rfl⟩
  | @call _ _ _ c | @loop _ _ c =>
    obtain ⟨l, hl⟩ := @sent_exec env c s.shared
    exact ⟨⟨l, hl.symm⟩, List.prefix_rfl⟩

theorem extends_of_step (h : (machine env conn).step s a = some t) : Extends s t := by
  cases a with
  | user a =>
    obtain ⟨c, hc, rfl⟩ := Option.map_eq_some_iff.1 h
    exact ⟨requests_userStep hc, fun _ _ => id, List.prefix_rfl, List.prefix_rfl, List.prefix_rfl, le_rfl⟩
  | network =>
    simp only [machine, step] at h
    split at h
    · cases h
    · obtain ⟨c, hc, rfl⟩ := Option.map_eq_some_iff.1 h
      exact ⟨requests_networkStep hc, fun _ _ => id, List.prefix_rfl, List.prefix_rfl, List.prefix_rfl, le_rfl⟩
  | receive p =>
    simp only [machine, step] at h
    split at h
    · split at h
      case isTrue hp =>
        obtain rfl := Option.some.inj h
        refine ⟨List.prefix_rfl, fun _ _ => id, List.prefix_rfl, List.prefix_rfl, List.prefix_rfl, ?_⟩
        exact Nat.le_succ_of_le hp.2.2.2.1
      case isFalse => cases h
    · cases h
  | arrive r time =>
    simp only [machine, step] at h
    split at h
    case h_1 hr htask =>
      obtain ⟨threads, hthreads, rfl⟩ := Option.map_eq_some_iff.1 h
      obtain ⟨hsent, harrivals⟩ := grows_of_step hthreads
      refine ⟨List.prefix_rfl, fun r' k hk => ?_, List.prefix_rfl, hsent, harrivals, le_rfl⟩
      have hne : r' ≠ r := by
        rintro rfl
        rw [htask] at hk
        cases hk
      exact (Function.update_of_ne hne _ _).trans hk
    case h_2 => cases h
  | server a =>
    simp only [machine, step] at h
    split at h
    · obtain ⟨threads, hthreads, rfl⟩ := Option.map_eq_some_iff.1 h
      obtain ⟨hsent, harrivals⟩ := grows_of_step hthreads
      exact ⟨List.prefix_rfl, fun _ _ => id, List.prefix_append .., hsent, harrivals, le_rfl⟩
    · cases h

/-! ## Where the check stands -/

theorem Extends.answers (h : Extends s t) {r p : ℕ} (hr : s.Answers r p) : t.Answers r p := by
  obtain ⟨k, htask, hsender, hfirst⟩ := hr
  obtain ⟨senders, hsenders⟩ := h.senders
  have hp : p < s.senders.length := (List.getElem?_eq_some_iff.1 hsender).1
  refine ⟨k, h.tasks r k htask, ?_, fun q hq => ?_⟩
  · rw [← hsenders, List.getElem?_append_left hp, hsender]
  · rw [← hsenders, List.getElem?_append_left (by omega)]
    exact hfirst q hq

/-- A request has one answer. -/
theorem Answers.unique {r p q : ℕ} (hp : s.Answers r p) (hq : s.Answers r q) : p = q := by
  obtain ⟨k, hk, hp, hfirst⟩ := hp
  obtain ⟨k', hk', hq, hfirst'⟩ := hq
  obtain rfl : k = k' := Option.some.inj (hk.symm.trans hk')
  rcases lt_trichotomy p q with h | h | h
  · exact absurd hp (hfirst' p h)
  · exact h
  · exact absurd hq (hfirst q h)

/-- The call's request about `id` was number `r`, and its answer, message `p`, has come. -/
structure Got (conn : Conn) (s : System) (id : ℤ) (r p : ℕ) (js : Json) : Prop where
  request : s.client.requests[r]? = some (checkBlock id)
  answers : s.Answers r p
  checkBlock : IsCheckBlock conn s p js
  received : p < s.received

theorem getElem?_of_isPrefix {α : Type} {l l' : List α} (h : l <+: l') {i : ℕ} {a : α} (ha : l[i]? = some a) :
    l'[i]? = some a := by
  obtain ⟨l'', rfl⟩ := h
  rw [List.getElem?_append_left (List.getElem?_eq_some_iff.1 ha).1, ha]

theorem Extends.got (h : Extends s t) {id : ℤ} {r p : ℕ} {js : Json} (hgot : Got conn s id r p js) :
    Got conn t id r p js where
  request := getElem?_of_isPrefix h.requests hgot.request
  answers := h.answers hgot.answers
  checkBlock := ⟨getElem?_of_isPrefix h.sent hgot.checkBlock.1, hgot.checkBlock.2⟩
  received := Nat.lt_of_lt_of_le hgot.received h.received

/-- The answer is being handled: what is left of it, and the flags that are set already. -/
inductive Handling (c : Client) (p : ℕ) (js : Json) : Prop where
  | both (hnet : c.network =
      [.setIfBlock (someState js "block") p, .setIfFriend (someState js "friend") p, .postCheckIfBlock])
  | ifFriend (hnet : c.network = [.setIfFriend (someState js "friend") p, .postCheckIfBlock])
      (hflag : c.ifBlock = ⟨someState js "block", some p⟩)
  | post (hnet : c.network = [.postCheckIfBlock]) (hset : SetBy c p js)

theorem Handling.network_ne_nil {c : Client} {p : ℕ} {js : Json} (h : Handling c p js) : c.network ≠ [] := by
  cases h with
  | both hnet | ifFriend hnet | post hnet => simp [hnet]

/-- Between two checks nothing is left over; and a check goes from the request to its answer, the post, and the
test of the flags. -/
inductive Stage (conn : Conn) (s : System) : Prop where
  | exited (huser : s.client.user = .exited)
  | idle (huser : ∀ id r, s.client.user ≠ .waiting id r) (hquiet : Quiet s.client)
      (hcount : s.client.semCheckIfBlock = 0)
      (hown : ∀ id r, s.client.user = .answered id r ∨ s.client.user = .admitted id r →
        ∃ p js, Got conn s id r p js ∧ SetBy s.client p js)
  | asked (id : ℤ) (r : ℕ) (huser : s.client.user = .waiting id r) (hquiet : Quiet s.client)
      (hcount : s.client.semCheckIfBlock = 0) (hrequest : s.client.requests[r]? = some (checkBlock id))
  | handling (id : ℤ) (r p : ℕ) (js : Json) (huser : s.client.user = .waiting id r)
      (hcount : s.client.semCheckIfBlock = 0) (hgot : Got conn s id r p js) (hrest : Handling s.client p js)
  | posted (id : ℤ) (r p : ℕ) (js : Json) (huser : s.client.user = .waiting id r) (hquiet : Quiet s.client)
      (hcount : s.client.semCheckIfBlock = 1) (hgot : Got conn s id r p js) (hset : SetBy s.client p js)

theorem SetBy.congr {c c' : Client} {p : ℕ} {js : Json} (h : SetBy c p js) (hblock : c'.ifBlock = c.ifBlock)
    (hfriend : c'.ifFriend = c.ifFriend) : SetBy c' p js :=
  ⟨hblock.trans h.ifBlock, hfriend.trans h.ifFriend⟩

namespace Stage

theorem user (h : Stage conn s) {a : UserAction} (hst : (machine env conn).step s (.user a) = some t) :
    Stage conn t := by
  have hextends := extends_of_step hst
  obtain ⟨c, hc, rfl⟩ := Option.map_eq_some_iff.1 hst
  cases turn_of_userStep hc with
  | other hsame huser huser' =>
    cases h with
    | exited hexited => exact absurd hexited huser.1
    | idle _ hquiet hcount _ =>
      refine .idle ?_ ?_ (hsame.semCheckIfBlock.trans hcount) ?_
      · rintro id r heq
        rw [show c.user = .waiting id r from heq] at huser'
        cases huser'
      · rintro x hx
        exact hquiet x (hsame.network ▸ hx)
      · rintro id r (heq | heq)
        all_goals
          rw [show c.user = _ from heq] at huser'
          cases huser'
    | asked id r hwaiting | handling id r _ _ hwaiting | posted id r _ _ hwaiting =>
      exact absurd hwaiting (huser.2 id r)
  | ask id huser hc' =>
    subst hc'
    cases h with
    | idle _ hquiet hcount _ =>
      refine .asked id s.client.requests.length rfl hquiet hcount ?_
      exact List.getElem?_concat_length ..
    | exited hwaiting | asked _ _ hwaiting | handling _ _ _ _ hwaiting | posted _ _ _ _ hwaiting =>
      rw [huser] at hwaiting
      cases hwaiting
  | take id r huser hposted hc' =>
    subst hc'
    cases h with
    | posted id' r' p js hwaiting hquiet hcount hgot hset =>
      refine .idle nofun hquiet ?_ ?_
      · show s.client.semCheckIfBlock - 1 = 0
        rw [hcount]
      · rintro id₁ r₁ (heq | heq)
        · obtain ⟨rfl, rfl⟩ := UserThread.waiting.inj (huser.symm.trans hwaiting)
          obtain ⟨rfl, rfl⟩ := UserThread.answered.inj heq
          exact ⟨p, js, hextends.got hgot, hset.congr rfl rfl⟩
        · cases heq
    | asked _ _ _ _ hcount | handling _ _ _ _ _ hcount => exact absurd hcount hposted
    | exited hwaiting =>
      rw [huser] at hwaiting
      cases hwaiting
    | idle hnot => exact absurd huser (hnot id r)
  | enter id r huser hc' =>
    subst hc'
    cases h with
    | idle _ hquiet hcount hown =>
      refine .idle nofun hquiet hcount ?_
      rintro id₁ r₁ (heq | heq)
      · cases heq
      · obtain ⟨rfl, rfl⟩ := UserThread.admitted.inj heq
        obtain ⟨p, js, hgot, hset⟩ := hown id r (.inl huser)
        exact ⟨p, js, hextends.got hgot, hset.congr rfl rfl⟩
    | exited hwaiting | asked _ _ hwaiting | handling _ _ _ _ hwaiting | posted _ _ _ _ hwaiting =>
      rw [huser] at hwaiting
      cases hwaiting

theorem network (h : Stage conn s) (hst : (machine env conn).step s .network = some t) : Stage conn t := by
  have hextends := extends_of_step hst
  simp only [machine, step] at hst
  split at hst
  case isTrue => cases hst
  case isFalse halive =>
    obtain ⟨c, hc, rfl⟩ := Option.map_eq_some_iff.1 hst
    cases h with
    | exited hexited => exact absurd hexited halive
    | idle huser hquiet hcount hown =>
      obtain ⟨hquiet', hblock, hfriend, hsem, heq | hexited⟩ := hquiet.networkStep hc
      · refine .idle ?_ hquiet' (hsem.trans hcount) ?_
        · exact fun id r hwaiting => huser id r (heq.symm.trans hwaiting)
        · rintro id r huser'
          obtain ⟨p, js, hgot, hset⟩ := hown id r (huser'.imp heq.symm.trans heq.symm.trans)
          exact ⟨p, js, hextends.got hgot, hset.congr hblock hfriend⟩
      · exact .exited hexited
    | asked id r huser hquiet hcount hrequest =>
      obtain ⟨hquiet', hblock, hfriend, hsem, heq | hexited⟩ := hquiet.networkStep hc
      · exact .asked id r (heq.trans huser) hquiet' (hsem.trans hcount)
          (getElem?_of_isPrefix hextends.requests hrequest)
      · exact .exited hexited
    | posted id r p js huser hquiet hcount hgot hset =>
      obtain ⟨hquiet', hblock, hfriend, hsem, heq | hexited⟩ := hquiet.networkStep hc
      · exact .posted id r p js (heq.trans huser) hquiet' (hsem.trans hcount) (hextends.got hgot)
          (hset.congr hblock hfriend)
      · exact .exited hexited
    | handling id r p js huser hcount hgot hrest =>
      cases hrest with
      | both hnet =>
        simp only [networkStep, hnet, Option.some.injEq] at hc
        subst hc
        exact .handling id r p js huser hcount (hextends.got hgot) (.ifFriend rfl rfl)
      | ifFriend hnet hflag =>
        simp only [networkStep, hnet, Option.some.injEq] at hc
        subst hc
        refine .handling id r p js huser hcount (hextends.got hgot) (.post rfl ⟨hflag, ?_⟩)
        rw [hflag]
      | post hnet hset =>
        simp only [networkStep, hnet, Option.some.injEq] at hc
        subst hc
        refine .posted id r p js huser nofun ?_ (hextends.got hgot) (hset.congr rfl rfl)
        show s.client.semCheckIfBlock + 1 = 1
        rw [hcount]

theorem receive (h : Stage conn s) {p : ℕ} (hok : Awaited conn s (.receive p))
    (hst : (machine env conn).step s (.receive p) = some t) : Stage conn t := by
  have hextends := extends_of_step hst
  simp only [machine, step] at hst
  split at hst
  case h_2 => cases hst
  case h_1 d js hp =>
    split at hst
    case isFalse => cases hst
    case isTrue hguard =>
      obtain ⟨rfl, halive, hnone, hreceived, -⟩ := hguard
      obtain rfl := Option.some.inj hst
      by_cases hcheck : js.intField "msgid" = .ok EnMsgType.checkBlock.code
      · obtain ⟨id, r, huser, hanswers⟩ := hok p js rfl ⟨hp, hcheck⟩
        have hnet := handleServerMessage_checkBlock p hcheck
        cases h with
        | exited hexited => exact absurd hexited halive
        | idle hnot => exact absurd huser (hnot id r)
        | asked id' r' huser' hquiet hcount hrequest =>
          obtain ⟨rfl, rfl⟩ := UserThread.waiting.inj (huser.symm.trans huser')
          exact .handling id r p js huser hcount
            ⟨hrequest, hextends.answers hanswers, ⟨hp, hcheck⟩, Nat.lt_succ_self p⟩ (.both hnet)
        | handling _ _ _ _ _ _ _ hrest => exact absurd hnone hrest.network_ne_nil
        | posted id' r' p' js' huser' hquiet hcount hgot hset =>
          -- the answer has come already, and is not among the messages that are left
          obtain ⟨rfl, rfl⟩ := UserThread.waiting.inj (huser.symm.trans huser')
          obtain rfl := hanswers.unique hgot.answers
          exact absurd hgot.received (by omega)
      · have hquiet := quiet_handleServerMessage p hcheck
        cases h with
        | exited hexited => exact absurd hexited halive
        | idle huser _ hcount hown =>
          refine .idle huser hquiet hcount fun id r huser' => ?_
          obtain ⟨q, js', hgot, hset⟩ := hown id r huser'
          exact ⟨q, js', hextends.got hgot, hset.congr rfl rfl⟩
        | asked id r huser _ hcount hrequest => exact .asked id r huser hquiet hcount hrequest
        | handling _ _ _ _ _ _ _ hrest => exact absurd hnone hrest.network_ne_nil
        | posted id r q js' huser _ hcount hgot hset =>
          exact .posted id r q js' huser hquiet hcount (hextends.got hgot) (hset.congr rfl rfl)

/-- The server does not touch the client. -/
theorem of_extends (h : Stage conn s) (hextends : Extends s t) (hclient : t.client = s.client) : Stage conn t := by
  cases h with
  | exited huser => exact .exited (by rw [hclient, huser])
  | idle huser hquiet hcount hown =>
    refine .idle (by rwa [hclient]) (by rwa [hclient]) (by rwa [hclient]) ?_
    rw [hclient]
    rintro id r huser'
    obtain ⟨p, js, hgot, hset⟩ := hown id r huser'
    exact ⟨p, js, hextends.got hgot, hset⟩
  | asked id r huser hquiet hcount hrequest =>
    exact .asked id r (by rwa [hclient]) (by rwa [hclient]) (by rwa [hclient]) (by rwa [hclient])
  | handling id r p js huser hcount hgot hrest =>
    exact .handling id r p js (by rwa [hclient]) (by rwa [hclient]) (hextends.got hgot) (by rwa [hclient])
  | posted id r p js huser hquiet hcount hgot hset =>
    exact .posted id r p js (by rwa [hclient]) (by rwa [hclient]) (by rwa [hclient]) (hextends.got hgot)
      (by rwa [hclient])

end Stage

/-- Every task of the client was started for its request. -/
def TasksArrived (conn : Conn) (s : System) : Prop :=
  ∀ r k, s.tasks r = some k → ∃ request time, s.client.requests[r]? = some request ∧
    s.threads.arrivals[k]? = some (.request conn request.msgid.code request.js time)

theorem TasksArrived.of_extends (h : TasksArrived conn s) (hextends : Extends s t) (htasks : t.tasks = s.tasks) :
    TasksArrived conn t := by
  intro r k hk
  obtain ⟨request, time, hrequest, harrival⟩ := h r k (htasks ▸ hk)
  exact ⟨request, time, getElem?_of_isPrefix hextends.requests hrequest,
    getElem?_of_isPrefix hextends.arrivals harrival⟩

structure Inv (conn : Conn) (s : System) : Prop where
  stage : Stage conn s
  tasks : TasksArrived conn s

theorem inv_start (threads : Threads) : Inv conn (start threads) where
  stage := .idle nofun nofun rfl (by rintro id r (h | h) <;> cases h)
  tasks := nofun

theorem inv_step (hok : Awaited conn s a) (hst : (machine env conn).step s a = some t) (h : Inv conn s) :
    Inv conn t := by
  have hextends := extends_of_step hst
  cases a with
  | user a =>
    refine ⟨h.stage.user hst, h.tasks.of_extends hextends ?_⟩
    obtain ⟨c, -, rfl⟩ := Option.map_eq_some_iff.1 hst
    rfl
  | network =>
    refine ⟨h.stage.network hst, h.tasks.of_extends hextends ?_⟩
    simp only [machine, step] at hst
    split at hst
    · cases hst
    · obtain ⟨c, -, rfl⟩ := Option.map_eq_some_iff.1 hst
      rfl
  | receive p =>
    refine ⟨h.stage.receive hok hst, h.tasks.of_extends hextends ?_⟩
    simp only [machine, step] at hst
    split at hst
    · split at hst
      · obtain rfl := Option.some.inj hst
        rfl
      · cases hst
    · cases hst
  | arrive r time =>
    simp only [machine, step] at hst
    split at hst
    case h_1 request hrequest htask =>
      obtain ⟨threads, hthreads, rfl⟩ := Option.map_eq_some_iff.1 hst
      refine ⟨h.stage.of_extends hextends rfl, fun r' k hk => ?_⟩
      replace hk : Function.update s.tasks r (some s.threads.arrivals.length) r' = some k := hk
      by_cases hr : r' = r
      · subst hr
        rw [Function.update_self] at hk
        obtain rfl := Option.some.inj hk
        obtain rfl := Option.some.inj hthreads
        exact ⟨request, time, hrequest, List.getElem?_concat_length ..⟩
      · rw [Function.update_of_ne hr] at hk
        obtain ⟨request', time', hrequest', harrival⟩ := h.tasks r' k hk
        exact ⟨request', time', hrequest', getElem?_of_isPrefix hextends.arrivals harrival⟩
    case h_2 => cases hst
  | server a =>
    simp only [machine, step] at hst
    split at hst
    · obtain ⟨threads, -, rfl⟩ := Option.map_eq_some_iff.1 hst
      exact ⟨h.stage.of_extends hextends rfl, h.tasks.of_extends hextends rfl⟩
    · cases hst

/-- **`privateChat` goes on with its own answer**, in every run in which the client reads no CHECK_BLOCK but the answers
to calls that wait for them. -/
theorem ownAnswer_of_run {threads : Threads} {l : List Action}
    (h : (machine env conn).Run (Awaited conn) (start threads) l s) {id : ℤ} {r : ℕ}
    (huser : s.client.user = .answered id r ∨ s.client.user = .admitted id r) : OwnAnswer conn s id r := by
  have hinv := h.invariant (fun s a t => inv_step) (inv_start threads)
  cases hinv.stage with
  | idle _ _ hcount hown =>
    obtain ⟨p, js, hgot, hset⟩ := hown id r huser
    obtain ⟨k, hk, -⟩ := hgot.answers
    obtain ⟨request, time, hrequest, harrival⟩ := hinv.tasks r k hk
    obtain rfl : checkBlock id = request := Option.some.inj (hgot.request.symm.trans hrequest)
    exact ⟨hcount, hgot.request, ⟨k, time, hk, harrival⟩, ⟨p, js, hgot.answers, hgot.checkBlock, hset⟩⟩
  | exited hother | asked _ _ hother | handling _ _ _ _ hother | posted _ _ _ _ hother =>
    rw [hother] at huser
    rcases huser with heq | heq <;> cases heq

/-! ## Two runs -/

section Runs

/-- Ann and bob are friends. -/
def annAndBobFriends : World := World.init ((annAndBob.insertFriend 3 4 .friend).insertFriend 4 3 .friend)

def serverStarts : Threads := Pool.start 1 (boot .still annAndBobFriends)

def annLogsIn : Request :=
  ⟨.loginMsg, .obj [("msgid", .msg .loginMsg), ("name", .str "ann"), ("password", .str "a")]⟩

/-- The server reads request `r`, and its only worker does `n` steps of it. -/
def served (r n : ℕ) : List Action :=
  .arrive r "" :: .server (.dequeue 0) :: List.replicate n (.server (.work 0))

/-- Ann logs in, and reads that she has. -/
def annEnters : List Action := .user (.otherRequest annLogsIn) :: served 0 9 ++ [.receive 0, .network]

/-- She chooses to chat, is shown her friends, and enters an id. -/
def annChoosesToChat (friendList : ℕ) (id : ℤ) : List Action :=
  .user .privateChat :: served 1 4 ++ [.receive friendList, .network, .user .proceed, .user (.enterId id)]

/-- Before that, bob logs in on connection 2 and asks about ann. She is sent his answer, too. -/
def bobAsksAboutAnn : List Action :=
  (handled 2 .loginMsg [("name", .str "bob"), ("password", .str "b")] 10 ++
    handled 2 .checkBlock [("check_id", .num 3)] 7).map .server ++
    [.receive 2, .receive 4, .network, .network, .network]

theorem awaited_of_ne {conn : Conn} {s : System} {a : Action} (h : ∀ p, a ≠ .receive p) : Awaited conn s a :=
  fun p _ hp => absurd hp (h p)

theorem awaited_of_other {conn : Conn} {s : System} {p : ℕ} {d : Conn} {js : Json}
    (hp : s.threads.shared.sent[p]? = some (d, js)) (hjs : js.intField "msgid" ≠ .ok EnMsgType.checkBlock.code) :
    Awaited conn s (.receive p) := by
  rintro q js' hq ⟨hsent, hcheck⟩
  obtain rfl := Action.receive.inj hq
  obtain ⟨-, rfl⟩ := Prod.mk.inj (Option.some.inj (hp.symm.trans hsent))
  exact absurd hcheck hjs

theorem awaited_of_waiting {conn : Conn} {s : System} {id : ℤ} {r p : ℕ} (huser : s.client.user = .waiting id r)
    (hanswers : s.Answers r p) : Awaited conn s (.receive p) := by
  rintro q js hq -
  obtain rfl := Action.receive.inj hq
  exact ⟨id, r, huser, hanswers⟩

/-- Ann asks about bob, and reads the answer. -/
theorem ownAnswer_of_run_ann : ∃ l s, (machine .still 1).Run (Awaited 1) (start serverStarts) l s ∧
    s.client.user = .answered 4 2 ∧ OwnAnswer 1 s 4 2 := by
  obtain ⟨l, s, hrun, huser⟩ : ∃ l s, (machine .still 1).Run (Awaited 1) (start serverStarts) l s ∧
      s.client.user = .answered 4 2 := by
    have hok : ∀ l : List Action, (∀ a ∈ l, ∀ p, a ≠ .receive p) → ∀ a ∈ l, ∀ s, Awaited 1 s a :=
      fun l hl a ha s => awaited_of_ne (hl a ha)
    let enters : List Action := .user (.otherRequest annLogsIn) :: served 0 9
    let chooses : List Action := .network :: .user .privateChat :: served 1 4
    let asks : List Action := .network :: .user .proceed :: .user (.enterId 4) :: served 2 6
    let reads : List Action := [.network, .network, .network, .user .proceed]
    refine ⟨_, _, (Machine.run_of_exec_of (hok enters (by simp [enters, served])) rfl).append <|
      .cons (awaited_of_other (p := 0) rfl (by decide)) rfl <|
      (Machine.run_of_exec_of (hok chooses (by simp [chooses, served])) rfl).append <|
      .cons (awaited_of_other (p := 1) rfl (by decide)) rfl <|
      (Machine.run_of_exec_of (hok asks (by simp [asks, served])) rfl).append <|
      .cons (awaited_of_waiting (p := 2) rfl ⟨2, rfl, rfl, by decide⟩) rfl <|
      Machine.run_of_exec_of (hok reads (by simp [reads])) rfl, rfl⟩
  exact ⟨l, s, hrun, huser, ownAnswer_of_run hrun (.inl huser)⟩

/-- Ann is let into a chat with number 9, who is nobody, by the answer that bob was given. -/
theorem others_answer : ∃ s, (machine .still 1).exec (start serverStarts)
      (annEnters ++ bobAsksAboutAnn ++ annChoosesToChat 5 9 ++ [.user .proceed, .user .proceed]) = some s ∧
    s.client.user = .admitted 9 2 ∧ s.client.ifFriend = ⟨true, some 4⟩ ∧
    s.threads.shared.db.friendState 3 9 = none ∧ ¬ OwnAnswer 1 s 9 2 := by
  obtain ⟨s, hs, huser, hfriend, hstate, htask⟩ : ∃ s, (machine .still 1).exec (start serverStarts)
      (annEnters ++ bobAsksAboutAnn ++ annChoosesToChat 5 9 ++ [.user .proceed, .user .proceed]) = some s ∧
    s.client.user = .admitted 9 2 ∧ s.client.ifFriend = ⟨true, some 4⟩ ∧
    s.threads.shared.db.friendState 3 9 = none ∧ s.tasks 2 = none := ⟨_, rfl, rfl, rfl, rfl, rfl⟩
  refine ⟨s, hs, huser, hfriend, hstate, fun hown => ?_⟩
  obtain ⟨k, -, hk, -⟩ := hown.task
  rw [htask] at hk
  cases hk

end Runs

end System

end Chatroom.Client
