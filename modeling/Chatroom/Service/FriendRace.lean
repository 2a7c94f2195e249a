import Chatroom.Lib.Protocol
import Chatroom.Service.Friend

/-!
# Friend requests that cross

Several workers run `handleAddFriend` for the same two users. A worker is at one of the points of `Point`, as far
as the table of friends is concerned (`follows_handleAddFriend`), and what one command does is `advances`. No
order of commands leaves requests from both sides, except where a worker inserts a request that it decided on
before the request of the other side came in.
-/

namespace Chatroom.Service

open Lib

/-- How far `handleAddFriend` has come with the table. -/
inductive Point where
  | before
  /-- the own row was read -/
  | half (state1 : Option FriendState)
  | asking
  | accepting
  /-- the own row was inserted, the other one is to become `friend` -/
  | completing
  | after
  deriving DecidableEq

/-- Where the states that were read lead. -/
def answering (state1 state2 : Option FriendState) : Point :=
  if Asks state1 state2 then .asking else if Accepts state1 state2 then .accepting else .after

/-- The point after a command for `x`, the user of `conn`, towards `y`; none if the command is not one of
`handleAddFriend` there. -/
def advance (conn : Conn) (x y : ℤ) : Point → (c : Cmd) → Ans c → Option Point
  | .before, .friendState u v, state => if (u, v) = (x, y) then some (.half state) else none
  | .half state1, .friendState u v, state2 => if (u, v) = (y, x) then some (answering state1 state2) else none
  | .asking, .insertFriend u v state, _ => if (u, v, state) = (x, y, .request) then some .after else none
  | .accepting, .insertFriend u v state, _ => if (u, v, state) = (x, y, .friend) then some .completing else none
  | .completing, .modifyFriend u v state, _ => if (u, v, state) = (y, x, .friend) then some .after else none
  | p, .connUser d, _ => if d = conn then some p else none
  | _, .friendState _ _, _ => none
  | p, c, _ => if c.area = none then some p else none

/-- What `x` on `conn` is told when it asks who it is, and for the user `name`. -/
def Told (conn : Conn) (name : String) (x y : ℤ) : (c : Cmd) → Ans c → Prop
  | .connUser d, u => d = conn → u = x
  | .queryUserByName n, user => n = name → user.id = y
  | _, _ => True

/-- The program goes on as `handleAddFriend` does from the point. -/
def Follows (conn : Conn) (name : String) (x y : ℤ) (p : Task Unit) : Point → Prop :=
  p.Obeys (advance conn x y) (Told conn name x y) fun r p => r = .ok ⟨⟩ ∧ p = .after

section Follows

variable {conn : Conn} {name : String} {x y : ℤ}

theorem follows_askFriend : Follows conn name x y (askFriend conn x y) .asking := by
  refine fun _ _ => ⟨.after, if_pos rfl, fun _ _ => ⟨.after, rfl, fun it _ => ⟨.after, rfl, ?_⟩⟩⟩
  cases it with
  | none => exact ⟨rfl, rfl⟩
  | some d => exact fun _ _ => ⟨.after, rfl, rfl, rfl⟩

theorem follows_acceptFriend (addName : String) :
    Follows conn name x y (acceptFriend conn x y addName) .accepting := by
  refine fun _ _ => ⟨.completing, if_pos rfl, fun _ _ => ⟨.after, if_pos rfl, fun friend _ => ⟨.after, rfl, ?_⟩⟩⟩
  refine fun _ _ => ⟨.after, rfl, ?_⟩
  show Follows conn name x y (if friend.state = "online" then _ else _) .after
  split
  case isTrue =>
    refine fun it _ => ⟨.after, rfl, ?_⟩
    cases it with
    | none => exact ⟨rfl, rfl⟩
    | some toConn => exact fun _ _ => ⟨.after, rfl, fun _ _ => ⟨.after, rfl, rfl, rfl⟩⟩
  case isFalse => exact ⟨rfl, rfl⟩

theorem follows_handleAddFriend {js : Json} (hname : js.stringField "add_name" = .ok name) (time : String) :
    Follows conn name x y (handleAddFriend conn js time) .before := by
  rw [handleAddFriend_eq hname]
  intro u hu
  obtain rfl := hu rfl
  refine ⟨.before, if_pos rfl, fun user huser => ?_⟩
  obtain rfl := huser rfl
  refine ⟨.before, rfl, fun u hu => ?_⟩
  obtain rfl := hu rfl
  refine ⟨.before, if_pos rfl, fun state1 _ => ⟨.half state1, if_pos rfl, fun state2 _ => ?_⟩⟩
  refine ⟨answering state1 state2, if_pos rfl, ?_⟩
  show Follows conn name u user.id (answerStates conn u user.id name state1 state2) (answering state1 state2)
  unfold answerStates answering
  split
  case isTrue => exact follows_askFriend
  case isFalse =>
    split
    case isTrue => exact follows_acceptFriend name
    case isFalse => exact ⟨rfl, rfl⟩

end Follows

/-! ## One command -/

/-- What a command of `handleAddFriend` does to the table and to the point. -/
inductive Advances (x y : ℤ) (t t' : Friends) (c : Cmd) : Point → Point → Prop where
  | quiet (p : Point) (htable : t' = t) : Advances x y t t' c p p
  | readOwn (htable : t' = t) : Advances x y t t' c .before (.half (t.lookup (x, y)))
  | readOther (state1 : Option FriendState) (htable : t' = t) :
      Advances x y t t' c (.half state1) (answering state1 (t.lookup (y, x)))
  | ask (hc : c = .insertFriend x y .request) (htable : t' = t.insertIgnore (x, y) .request) :
      Advances x y t t' c .asking .after
  | accept (htable : t' = t.insertIgnore (x, y) .friend) : Advances x y t t' c .accepting .completing
  | complete (htable : t' = t.modify (y, x) fun _ => .friend) : Advances x y t t' c .completing .after

section Advance

variable {env : Environment} {conn : Conn} {name : String} {x y : ℤ} {c : Cmd} {p p' : Point} {w : World}

theorem advances (h : advance conn x y p c (exec env c w).1 = some p') :
    Advances x y w.db.friend (exec env c w).2.db.friend c p p' := by
  unfold advance at h
  split at h
  case h_1 =>
    simp only [Option.ite_none_right_eq_some, Prod.mk.injEq, Option.some.injEq] at h
    obtain ⟨⟨rfl, rfl⟩, rfl⟩ := h
    exact .readOwn rfl
  case h_2 =>
    simp only [Option.ite_none_right_eq_some, Prod.mk.injEq, Option.some.injEq] at h
    obtain ⟨⟨rfl, rfl⟩, rfl⟩ := h
    exact .readOther _ rfl
  case h_3 =>
    simp only [Option.ite_none_right_eq_some, Prod.mk.injEq, Option.some.injEq] at h
    obtain ⟨⟨rfl, rfl, rfl⟩, rfl⟩ := h
    exact .ask rfl rfl
  case h_4 =>
    simp only [Option.ite_none_right_eq_some, Prod.mk.injEq, Option.some.injEq] at h
    obtain ⟨⟨rfl, rfl, rfl⟩, rfl⟩ := h
    exact .accept rfl
  case h_5 =>
    simp only [Option.ite_none_right_eq_some, Prod.mk.injEq, Option.some.injEq] at h
    obtain ⟨⟨rfl, rfl, rfl⟩, rfl⟩ := h
    exact .complete rfl
  case h_6 =>
    simp only [Option.ite_none_right_eq_some, Option.some.injEq] at h
    obtain ⟨rfl, rfl⟩ := h
    exact .quiet _ rfl
  case h_7 => cases h
  case h_8 =>
    simp only [Option.ite_none_right_eq_some, Option.some.injEq] at h
    obtain ⟨harea, rfl⟩ := h
    exact .quiet _ (friends_exec (fun hc => by rw [harea] at hc; cases hc) w)

/-- The users and who they are stay what they were. -/
theorem users_of_advance (hconn : w.connUserMap conn = some x)
    (h : advance conn x y p c (exec env c w).1 = some p') :
    (exec env c w).2.connUserMap = w.connUserMap ∧ (exec env c w).2.db.user = w.db.user := by
  cases c <;> first | exact ⟨rfl, rfl⟩ | (cases p <;> simp [advance] at h; done) | skip
  case connUser d =>
    obtain rfl : d = conn := by
      cases p <;> simpa [advance] using And.left (by simpa [advance] using h)
    exact ⟨Function.update_eq_self_iff.2 (by simp [hconn]), rfl⟩

theorem told_exec (hconn : w.connUserMap conn = some x) (hname : (w.db.queryUserByName env.collate name).id = y) :
    Told conn name x y c (exec env c w).1 := by
  cases c <;> first | trivial | skip
  case connUser d =>
    rintro rfl
    simp [exec, hconn]
  case queryUserByName n =>
    rintro rfl
    exact hname

end Advance

/-! ## The rows between two users -/

/-- Every table of requests and friendships that is not stuck, with `state1` the row of one side. -/
def Crossable (state1 state2 : Option FriendState) : Prop :=
  (state1 = none ∧ (state2 = none ∨ state2 = some .request)) ∨
  (state1 = some .request ∧ (state2 = none ∨ state2 = some .friend)) ∨
  (state1 = some .friend ∧ (state2 = some .request ∨ state2 = some .friend))

theorem Crossable.symm {state1 state2 : Option FriendState} (h : Crossable state1 state2) :
    Crossable state2 state1 := by
  rcases h with ⟨rfl, rfl | rfl⟩ | ⟨rfl, rfl | rfl⟩ | ⟨rfl, rfl | rfl⟩ <;> simp [Crossable]

/-- `x` and `y` are the two users, in either order. -/
def Between (a b x y : ℤ) : Prop := (x = a ∧ y = b) ∨ (x = b ∧ y = a)

theorem Between.eq_or {a b x y u v : ℤ} (h : Between a b x y) (h' : Between a b u v) :
    (u = x ∧ v = y) ∨ (u = y ∧ v = x) := by
  rcases h with ⟨rfl, rfl⟩ | ⟨rfl, rfl⟩ <;> rcases h' with ⟨rfl, rfl⟩ | ⟨rfl, rfl⟩ <;> simp

/-- What a worker for `x` knows at its point, and the others cannot undo. -/
def Knows (state1 state2 : Option FriendState) : Point → Prop
  | .half s => s ≠ none → state1 ≠ none
  | .accepting => state2 ≠ none
  | .completing => state1 ≠ none ∧ state2 ≠ none
  | .after => state1 ≠ none ∨ state2 ≠ none
  | _ => True

/-- Rows come, and are not taken away. -/
def Grows (t t' : Friends) : Prop := ∀ k, t.lookup k ≠ none → t'.lookup k ≠ none

theorem Knows.mono {t t' : Friends} {x y : ℤ} {p : Point} (hgrows : Grows t t')
    (h : Knows (t.lookup (x, y)) (t.lookup (y, x)) p) : Knows (t'.lookup (x, y)) (t'.lookup (y, x)) p := by
  cases p with
  | half s => exact fun hs => hgrows _ (h hs)
  | accepting => exact hgrows _ h
  | completing => exact ⟨hgrows _ h.1, hgrows _ h.2⟩
  | after => exact h.imp (hgrows _) (hgrows _)
  | before => trivial
  | asking => trivial

section Advances

variable {a b x y : ℤ} {t t' : Friends} {c : Cmd} {p p' : Point}

theorem grows_insertIgnore (k : ℤ × ℤ) (state : FriendState) : Grows t (t.insertIgnore k state) := by
  intro k' hk'
  rw [Table.lookup_insertIgnore]
  split <;> simp_all

theorem grows_modify (k : ℤ × ℤ) (f : FriendState → FriendState) : Grows t (t.modify k f) := by
  intro k' hk'
  rw [Table.lookup_modify]
  split <;> simp_all

theorem Advances.grows (h : Advances x y t t' c p p') : Grows t t' := by
  cases h with
  | quiet _ htable => exact htable ▸ fun _ hk => hk
  | readOwn htable => exact htable ▸ fun _ hk => hk
  | readOther _ htable => exact htable ▸ fun _ hk => hk
  | ask _ htable => exact htable ▸ grows_insertIgnore _ _
  | accept htable => exact htable ▸ grows_insertIgnore _ _
  | complete htable => exact htable ▸ grows_modify _ _

theorem Advances.knows (h : Advances x y t t' c p p') (hknows : Knows (t.lookup (x, y)) (t.lookup (y, x)) p) :
    Knows (t'.lookup (x, y)) (t'.lookup (y, x)) p' := by
  cases h with
  | quiet _ htable => exact htable ▸ hknows
  | readOwn htable => exact htable ▸ id
  | readOther state1 htable =>
    subst htable
    unfold answering
    split
    case isTrue => trivial
    case isFalse hasks =>
      split
      case isTrue haccepts => simp [Knows, haccepts.2]
      case isFalse haccepts =>
        show _ ∨ _
        by_contra hnone
        obtain ⟨hown, hother⟩ := not_or.1 hnone
        rw [not_not] at hown hother
        have hstate : state1 = none := by
          by_contra hne
          exact hknows hne hown
        exact hasks ⟨.inl hstate, hother⟩
  | ask _ htable =>
    subst htable
    exact .inl (by simp [Table.lookup_insertIgnore])
  | accept htable =>
    subst htable
    exact ⟨by simp [Table.lookup_insertIgnore], grows_insertIgnore _ _ _ hknows⟩
  | complete htable =>
    subst htable
    exact .inl (grows_modify _ _ _ hknows.1)

/-- The rows stay as they should be, where no request is inserted beside one of the other side. -/
theorem Advances.crossable (h : Advances x y t t' c p p') (hxy : x ≠ y)
    (hknows : Knows (t.lookup (x, y)) (t.lookup (y, x)) p)
    (hfresh : c = .insertFriend x y .request → ¬ (t.lookup (x, y) = none ∧ t.lookup (y, x) = some .request))
    (hrows : Crossable (t.lookup (x, y)) (t.lookup (y, x))) : Crossable (t'.lookup (x, y)) (t'.lookup (y, x)) := by
  have hkey : (y, x) ≠ (x, y) := fun heq => hxy (Prod.mk.inj heq).2
  cases h with
  | quiet _ htable => exact htable ▸ hrows
  | readOwn htable => exact htable ▸ hrows
  | readOther _ htable => exact htable ▸ hrows
  | ask hc htable =>
    subst htable
    have hfresh := hfresh hc
    rw [Table.lookup_insertIgnore, if_pos rfl, Table.lookup_insertIgnore, if_neg hkey]
    rcases hrows with ⟨hown, hother | hother⟩ | ⟨hown, hother⟩ | ⟨hown, hother⟩
    · simp [hown, hother, Crossable]
    · exact absurd ⟨hown, hother⟩ hfresh
    · rcases hother with hother | hother <;> simp [hown, hother, Crossable]
    · rcases hother with hother | hother <;> simp [hown, hother, Crossable]
  | accept htable =>
    subst htable
    rw [Table.lookup_insertIgnore, if_pos rfl, Table.lookup_insertIgnore, if_neg hkey]
    rcases hrows with ⟨hown, hother | hother⟩ | ⟨hown, hother⟩ | ⟨hown, hother⟩
    · exact absurd hother hknows
    · simp [hown, hother, Crossable]
    · rcases hother with hother | hother <;> simp [hown, hother, Crossable]
    · rcases hother with hother | hother <;> simp [hown, hother, Crossable]
  | complete htable =>
    subst htable
    rw [Table.lookup_modify, if_neg hkey.symm, Table.lookup_modify, if_pos rfl]
    rcases hrows with ⟨hown, -⟩ | ⟨hown, hother | hother⟩ | ⟨hown, hother⟩
    · exact absurd hown hknows.1
    · exact absurd hother hknows.2
    · simp [hown, hother, Crossable]
    · rcases hother with hother | hother <;> simp [hown, hother, Crossable]

/-- Where a friendship of one side comes to stand beside a request, a worker is on its way to the other side. -/
theorem Advances.completes (h : Advances x y t t' c p p') (hxy : x ≠ y)
    (hknows : Knows (t.lookup (x, y)) (t.lookup (y, x)) p)
    (hrows : Crossable (t.lookup (x, y)) (t.lookup (y, x))) {u v : ℤ} (huv : (u = x ∧ v = y) ∨ (u = y ∧ v = x))
    (hrequest : t'.lookup (u, v) = some .request) (hfriend : t'.lookup (v, u) = some .friend) :
    (t.lookup (u, v) = some .request ∧ t.lookup (v, u) = some .friend) ∨
      (p' = .completing ∧ u = y ∧ v = x) := by
  have hkey : (y, x) ≠ (x, y) := fun heq => hxy (Prod.mk.inj heq).2
  cases h with
  | quiet _ htable => exact .inl (htable ▸ ⟨hrequest, hfriend⟩)
  | readOwn htable => exact .inl (htable ▸ ⟨hrequest, hfriend⟩)
  | readOther _ htable => exact .inl (htable ▸ ⟨hrequest, hfriend⟩)
  | ask _ htable =>
    subst htable
    rcases huv with ⟨rfl, rfl⟩ | ⟨rfl, rfl⟩
    · rw [Table.lookup_insertIgnore, if_pos rfl] at hrequest
      rw [Table.lookup_insertIgnore, if_neg hkey] at hfriend
      rcases hrows with ⟨-, hother⟩ | ⟨hown, -⟩ | ⟨hown, -⟩
      · rcases hother with hother | hother <;> cases hother.symm.trans hfriend
      · exact .inl ⟨hown, hfriend⟩
      · simp [hown] at hrequest
    · rw [Table.lookup_insertIgnore, if_neg hkey] at hrequest
      rw [Table.lookup_insertIgnore, if_pos rfl] at hfriend
      cases hown : t.lookup (v, u) with
      | none => simp [hown] at hfriend
      | some s => exact .inl ⟨hrequest, by simpa [hown] using hfriend⟩
  | accept htable =>
    subst htable
    rcases huv with ⟨rfl, rfl⟩ | ⟨rfl, rfl⟩
    · rw [Table.lookup_insertIgnore, if_pos rfl] at hrequest
      rw [Table.lookup_insertIgnore, if_neg hkey] at hfriend
      cases hown : t.lookup (u, v) with
      | none => simp [hown] at hrequest
      | some s => exact .inl ⟨by simpa [hown] using hrequest, hfriend⟩
    · exact .inr ⟨rfl, rfl, rfl⟩
  | complete htable =>
    subst htable
    rcases huv with ⟨rfl, rfl⟩ | ⟨rfl, rfl⟩
    · rw [Table.lookup_modify, if_neg hkey.symm] at hrequest
      rcases hrows with ⟨hown, -⟩ | ⟨hown, hother | hother⟩ | ⟨hown, -⟩
      · cases hown.symm.trans hrequest
      · exact absurd hother hknows.2
      · exact .inl ⟨hown, hother⟩
      · cases hown.symm.trans hrequest
    · rw [Table.lookup_modify, if_pos rfl] at hrequest
      cases hother : t.lookup (u, v) <;> simp [hother] at hrequest

end Advances

/-! ## Workers -/

/-- The request of `x` to be a friend of `y`. -/
def Towards (env : Environment) (w : World) (x y : ℤ) : Activity → Prop
  | .request conn msgid js _ => msgid = EnMsgType.addFriend.code ∧ w.connUserMap conn = some x ∧
      ∃ name, js.stringField "add_name" = .ok name ∧ (w.db.queryUserByName env.collate name).id = y
  | _ => False

/-- A worker for `x` towards `y` is at the point. -/
def At (env : Environment) (w : World) (x y : ℤ) (rest : Task Unit) (p : Point) : Prop :=
  ∃ conn name, w.connUserMap conn = some x ∧ (w.db.queryUserByName env.collate name).id = y ∧
    Follows conn name x y rest p

/-- The users and their connections are those of `w₀`. -/
structure SameUsers (w₀ w : World) : Prop where
  connUserMap : w.connUserMap = w₀.connUserMap
  user : w.db.user = w₀.db.user

section Workers

variable {env : Environment} {a b x y : ℤ} {w₀ w : World}

theorem at_body {activity : Activity} (h : Towards env w₀ x y activity) : At env w₀ x y activity.body .before := by
  cases activity with
  | request conn msgid js time =>
    obtain ⟨rfl, hconn, name, hname, hid⟩ := h
    exact ⟨conn, name, hconn, hid, follows_handleAddFriend hname time⟩
  | connStatus conn status => cases h
  | removeConnStatus conn => cases h
  | down conn => cases h
  | heartbeat => cases h

theorem at_call {c : Cmd} {next : Ans c → Task Unit} {p : Point} (hat : At env w₀ x y (.call c next) p)
    (husers : SameUsers w₀ w) : SameUsers w₀ (exec env c w).2 ∧
      ∃ p', Advances x y w.db.friend (exec env c w).2.db.friend c p p' ∧
        At env w₀ x y (next (exec env c w).1) p' := by
  obtain ⟨conn, name, hconn, hid, hfollows⟩ := hat
  have hconn' : w.connUserMap conn = some x := by rw [husers.connUserMap, hconn]
  have hid' : (w.db.queryUserByName env.collate name).id = y := by
    rw [← hid]
    simp only [Db.queryUserByName, husers.user]
  obtain ⟨p', hadvance, hnext⟩ := hfollows _ (told_exec hconn' hid')
  obtain ⟨hmap, huser⟩ := users_of_advance hconn' hadvance
  exact ⟨⟨hmap.trans husers.connUserMap, huser.trans husers.user⟩, p', advances hadvance, conn, name, hconn, hid, hnext⟩

theorem at_returned {rest : Task Unit} {p : Point} (hat : At env w₀ x y rest p)
    (hrest : ∀ c next, rest ≠ .call c next) : p = .after := by
  obtain ⟨conn, name, -, -, hfollows⟩ := hat
  cases rest with
  | ret a => exact hfollows.2
  | throw e => cases hfollows.1
  | call c next => exact absurd rfl (hrest c next)

/-- What holds between two users while workers run their requests: what the workers know, that the rows are not stuck,
that where one row says `friend` and the other is still a request a worker is about to change it, and that no request
is lost. -/
structure Race (env : Environment) (a b : ℤ) (w₀ : World) (s : Threads) : Prop where
  users : SameUsers w₀ s.shared
  queue : ∀ r ∈ s.queue, ∃ x y, Between a b x y ∧ Towards env w₀ x y r.1
  threads : ∀ th ∈ s.threads, ∃ x y p, Between a b x y ∧ At env w₀ x y th.rest p ∧
    Knows (s.shared.db.friend.lookup (x, y)) (s.shared.db.friend.lookup (y, x)) p
  rows : ∀ x y, Between a b x y →
    Crossable (s.shared.db.friend.lookup (x, y)) (s.shared.db.friend.lookup (y, x))
  completed : ∀ x y, Between a b x y → s.shared.db.friend.lookup (x, y) = some .request →
    s.shared.db.friend.lookup (y, x) = some .friend → ∃ th ∈ s.threads, At env w₀ y x th.rest .completing
  notLost : s.arrivals ≠ [] → s.queue ≠ [] ∨ s.threads ≠ [] ∨
    s.shared.db.friend.lookup (a, b) ≠ none ∨ s.shared.db.friend.lookup (b, a) ≠ none

namespace Race

variable {s t : Threads}

theorem call (hs : Race env a b w₀ s) (hab : a ≠ b) {th : Thread Ans Fault Activity}
    {others : List (Thread Ans Fault Activity)} {c : Cmd} {next : Ans c → Task Unit} (hrest : th.rest = .call c next)
    (hthreads : s.threads.Perm (th :: others))
    (hthreads' : t.threads.Perm ({ th with rest := next (exec env c s.shared).1 } :: others))
    (hshared : t.shared = (exec env c s.shared).2) (hqueue : t.queue = s.queue)
    (hfresh : ∀ x y, c = .insertFriend x y .request →
      ¬ (s.shared.db.friend.lookup (x, y) = none ∧ s.shared.db.friend.lookup (y, x) = some .request)) :
    Race env a b w₀ t := by
  obtain ⟨x, y, p, hxy, hat, hknows⟩ := hs.threads th (hthreads.mem_iff.2 (by simp))
  rw [hrest] at hat
  obtain ⟨husers, p', hadvances, hat'⟩ := at_call hat hs.users
  have hne : x ≠ y := by
    rcases hxy with ⟨rfl, rfl⟩ | ⟨rfl, rfl⟩
    · exact hab
    · exact hab.symm
  have hgrows := hadvances.grows
  constructor
  · rw [hshared]
    exact husers
  · rw [hqueue]
    exact hs.queue
  · intro th' hmem
    rw [hshared]
    rcases List.mem_cons.1 (hthreads'.mem_iff.1 hmem) with rfl | hmem
    · exact ⟨x, y, p', hxy, hat', hadvances.knows hknows⟩
    · obtain ⟨u, v, q, huv, hat'', hknows'⟩ := hs.threads th' (hthreads.mem_iff.2 (List.mem_cons_of_mem _ hmem))
      exact ⟨u, v, q, huv, hat'', hknows'.mono hgrows⟩
  · have hrows := hadvances.crossable hne hknows (hfresh x y) (hs.rows x y hxy)
    intro u v huv
    rw [hshared]
    rcases hxy.eq_or huv with ⟨rfl, rfl⟩ | ⟨rfl, rfl⟩
    · exact hrows
    · exact hrows.symm
  · intro u v huv hrequest hfriend
    rw [hshared] at hrequest hfriend
    rcases hadvances.completes hne hknows (hs.rows x y hxy) (hxy.eq_or huv) hrequest hfriend with
      ⟨hrequest₀, hfriend₀⟩ | ⟨rfl, rfl, rfl⟩
    · obtain ⟨th', hmem, hat₁⟩ := hs.completed u v huv hrequest₀ hfriend₀
      rcases List.mem_cons.1 (hthreads.mem_iff.1 hmem) with rfl | hmem
      · -- the worker that was to change the request has moved: it has not changed it yet
        rw [hrest] at hat₁
        obtain ⟨-, p₁, hadvances₁, hat₂⟩ := at_call hat₁ hs.users
        cases hadvances₁ with
        | quiet => exact ⟨_, hthreads'.mem_iff.2 (List.mem_cons_self ..), hat₂⟩
        | complete htable =>
          rw [htable, Table.lookup_modify, if_pos rfl, hrequest₀] at hrequest
          cases hrequest
      · exact ⟨th', hthreads'.mem_iff.2 (List.mem_cons_of_mem _ hmem), hat₁⟩
    · exact ⟨_, hthreads'.mem_iff.2 (List.mem_cons_self ..), hat'⟩
  · intro _
    refine .inr (.inl fun hnil => ?_)
    rw [hnil] at hthreads'
    exact absurd hthreads'.length_eq (by simp)

/-- A worker returns. -/
theorem finish (hs : Race env a b w₀ s) {th : Thread Ans Fault Activity} {others : List (Thread Ans Fault Activity)}
    (hrest : ∀ c next, th.rest ≠ .call c next) (hthreads : s.threads.Perm (th :: others))
    (hthreads' : t.threads.Perm others) (hshared : t.shared = s.shared) (hqueue : t.queue = s.queue) :
    Race env a b w₀ t := by
  obtain ⟨x, y, p, hxy, hat, hknows⟩ := hs.threads th (hthreads.mem_iff.2 (by simp))
  obtain rfl := at_returned hat hrest
  constructor
  · rw [hshared]
    exact hs.users
  · rw [hqueue]
    exact hs.queue
  · intro th' hmem
    rw [hshared]
    exact hs.threads th' (hthreads.mem_iff.2 (List.mem_cons_of_mem _ (hthreads'.mem_iff.1 hmem)))
  · rw [hshared]
    exact hs.rows
  · intro u v huv hrequest hfriend
    rw [hshared] at hrequest hfriend
    obtain ⟨th', hmem, hat'⟩ := hs.completed u v huv hrequest hfriend
    rcases List.mem_cons.1 (hthreads.mem_iff.1 hmem) with rfl | hmem
    · cases at_returned hat' hrest
    · exact ⟨th', hthreads'.mem_iff.2 hmem, hat'⟩
  · intro _
    rw [hshared]
    rcases hxy with ⟨rfl, rfl⟩ | ⟨rfl, rfl⟩
    · exact .inr (.inr hknows)
    · exact .inr (.inr hknows.symm)

/-- A worker starts on a request. -/
theorem start (hs : Race env a b w₀ s) {activity : Activity} (hxy : Between a b x y)
    (htask : Towards env w₀ x y activity) (hthreads : t.threads.Perm (⟨activity, activity.body⟩ :: s.threads))
    (hshared : t.shared = s.shared) (hqueue : ∀ r ∈ t.queue, r ∈ s.queue) : Race env a b w₀ t := by
  constructor
  · rw [hshared]
    exact hs.users
  · exact fun r hr => hs.queue r (hqueue r hr)
  · intro th' hmem
    rw [hshared]
    rcases List.mem_cons.1 (hthreads.mem_iff.1 hmem) with rfl | hmem
    · exact ⟨x, y, .before, hxy, at_body htask, trivial⟩
    · exact hs.threads th' hmem
  · rw [hshared]
    exact hs.rows
  · intro u v huv hrequest hfriend
    rw [hshared] at hrequest hfriend
    obtain ⟨th', hmem, hat⟩ := hs.completed u v huv hrequest hfriend
    exact ⟨th', hthreads.mem_iff.2 (List.mem_cons_of_mem _ hmem), hat⟩
  · intro _
    refine .inr (.inl fun hnil => ?_)
    rw [hnil] at hthreads
    exact absurd hthreads.length_eq (by simp)

theorem enqueue (hs : Race env a b w₀ s) {activity : Activity} (hxy : Between a b x y)
    (htask : Towards env w₀ x y activity) (arrivals : List Activity) (k : ℕ) :
    Race env a b w₀ { s with arrivals, queue := s.queue ++ [(activity, k)] } := by
  refine ⟨hs.users, fun r hr => ?_, hs.threads, hs.rows, hs.completed, fun _ => .inl (by simp)⟩
  rcases List.mem_append.1 hr with hr | hr
  · exact hs.queue r hr
  · rw [List.mem_singleton.1 hr]
    exact ⟨x, y, hxy, htask⟩

end Race

/-! ## Runs -/

/-- Requests of the two users, and workers that run them. -/
def OnlyAdds (env : Environment) (a b : ℤ) (w₀ : World) (_ : Threads) : Pool.Action Activity → Prop
  | .enqueue task => ∃ x y, Between a b x y ∧ Towards env w₀ x y task
  | .dequeue _ => True
  | .work _ => True
  | .spawn _ => False
  | .loop _ => False

/-- The worker does not insert a request where there is none of its side and one of the other side. -/
def NotStale (s : Threads) : Pool.Action Activity → Prop
  | .work i => ∀ k th x y next, s.workers[i]? = some (some (k, th)) →
      th.rest = .call (.insertFriend x y .request) next →
      ¬ (s.shared.db.friend.lookup (x, y) = none ∧ s.shared.db.friend.lookup (y, x) = some .request)
  | _ => True

theorem race_start (n : ℕ) (hnone : w₀.db.friend.lookup (a, b) = none) (hnone' : w₀.db.friend.lookup (b, a) = none) :
    Race env a b w₀ (Pool.start n w₀) := by
  constructor
  · exact ⟨rfl, rfl⟩
  · intro r hr
    cases hr
  · intro th hth
    rw [Pool.threads_start] at hth
    cases hth
  · rintro x y (⟨rfl, rfl⟩ | ⟨rfl, rfl⟩)
    · exact .inl ⟨hnone, .inl hnone'⟩
    · exact .inl ⟨hnone', .inl hnone⟩
  · rintro x y (⟨rfl, rfl⟩ | ⟨rfl, rfl⟩) hrequest
    · cases hnone.symm.trans hrequest
    · cases hnone'.symm.trans hrequest
  · exact fun h => absurd rfl h

theorem race_step (hab : a ≠ b) {s t : Threads} {act : Pool.Action Activity} (hadds : OnlyAdds env a b w₀ s act)
    (hfresh : NotStale s act) (hst : (server env).step s act = some t) (hs : Race env a b w₀ s) :
    Race env a b w₀ t := by
  cases Pool.steps_of_step _ _ hst with
  | enqueue task =>
    obtain ⟨x, y, hxy, htask⟩ := hadds
    exact hs.enqueue hxy htask _ _
  | dequeue hidle hqueue =>
    obtain ⟨others, hthreads, hset⟩ := Pool.threads_set_worker hidle
    obtain ⟨x, y, hxy, htask⟩ := hs.queue _ (hqueue ▸ List.mem_cons_self ..)
    refine hs.start hxy htask ((hset _).trans (hthreads.symm.cons _)) rfl fun r hr => ?_
    rw [hqueue]
    exact List.mem_cons_of_mem _ hr
  | call hbusy hrest =>
    obtain ⟨others, hthreads, hset⟩ := Pool.threads_set_worker hbusy
    refine hs.call hab hrest hthreads (hset _) rfl rfl fun x y hc => ?_
    subst hc
    exact hfresh _ _ x y _ hbusy hrest
  | finish hbusy hrest =>
    obtain ⟨others, hthreads, hset⟩ := Pool.threads_set_worker hbusy
    exact hs.finish hrest hthreads (hset _) rfl rfl
  | spawn task => exact absurd hadds id
  | loop hth hrest => exact absurd hadds id

/-- Both rows say friend, or there is one request. -/
def Settled (state1 state2 : Option FriendState) : Prop :=
  (state1 = some .friend ∧ state2 = some .friend) ∨ (state1 = some .request ∧ state2 = none) ∨
    (state1 = none ∧ state2 = some .request)

theorem Race.settled {s : Threads} (hs : Race env a b w₀ s) (hqueue : s.queue = []) (hthreads : s.threads = [])
    (harrivals : s.arrivals ≠ []) :
    Settled (s.shared.db.friend.lookup (a, b)) (s.shared.db.friend.lookup (b, a)) := by
  have hcompleted : ∀ x y, Between a b x y → s.shared.db.friend.lookup (x, y) = some .request →
      s.shared.db.friend.lookup (y, x) ≠ some .friend := by
    intro x y hxy hrequest hfriend
    obtain ⟨th, hmem, -⟩ := hs.completed x y hxy hrequest hfriend
    rw [hthreads] at hmem
    cases hmem
  have hsome : s.shared.db.friend.lookup (a, b) ≠ none ∨ s.shared.db.friend.lookup (b, a) ≠ none := by
    rcases hs.notLost harrivals with h | h | h
    · exact absurd hqueue h
    · exact absurd hthreads h
    · exact h
  rcases hs.rows a b (.inl ⟨rfl, rfl⟩) with ⟨hown, hother | hother⟩ | ⟨hown, hother | hother⟩ | ⟨hown, hother | hother⟩
  · exact absurd hsome (by simp [hown, hother])
  · exact .inr (.inr ⟨hown, hother⟩)
  · exact .inr (.inl ⟨hown, hother⟩)
  · exact absurd hother (hcompleted a b (.inl ⟨rfl, rfl⟩) hown)
  · exact absurd hown (hcompleted b a (.inr ⟨rfl, rfl⟩) hother)
  · exact .inl ⟨hown, hother⟩

/-- One request is accepted by the next `handleAddFriend` of the other side. -/
theorem friends_of_add {t : Friends} (hab : a ≠ b) (hrequest : t.lookup (a, b) = some .request)
    (hnone : t.lookup (b, a) = none) : (FriendOp.apply t (.add b a)).lookup (a, b) = some .friend ∧
      (FriendOp.apply t (.add b a)).lookup (b, a) = some .friend := by
  have hasks : ¬ Asks (t.lookup (b, a)) (t.lookup (a, b)) := by
    simp [Asks, hrequest]
  have hkey : (a, b) ≠ (b, a) := fun heq => hab (Prod.mk.inj heq).1
  simp only [FriendOp.apply]
  rw [if_neg hasks, if_pos ⟨hnone, hrequest⟩]
  refine ⟨?_, ?_⟩
  · rw [Table.lookup_modify, if_pos rfl, Table.lookup_insertIgnore, if_neg hkey, hrequest]
    rfl
  · rw [Table.lookup_modify, if_neg hkey.symm, Table.lookup_insertIgnore, if_pos rfl, hnone]
    rfl

/-- **Requests that cross settle**, unless a worker inserts a request that it decided on before the one of the other
side came in: both are friends, or one request is left, and the other side completes it. -/
theorem settled_of_run {n : ℕ} {l : List (Pool.Action Activity)} {t : Threads} (hab : a ≠ b)
    (hnone : w₀.db.friend.lookup (a, b) = none) (hnone' : w₀.db.friend.lookup (b, a) = none)
    (h : (server env).Run (fun s act => OnlyAdds env a b w₀ s act ∧ NotStale s act) (Pool.start n w₀) l t)
    (hqueue : t.queue = []) (hthreads : t.threads = []) (harrivals : t.arrivals ≠ []) :
    Settled (t.shared.db.friend.lookup (a, b)) (t.shared.db.friend.lookup (b, a)) ∧
      ∀ x y, Between a b x y → t.shared.db.friend.lookup (x, y) = some .request →
        (FriendOp.apply t.shared.db.friend (.add y x)).lookup (x, y) = some .friend ∧
        (FriendOp.apply t.shared.db.friend (.add y x)).lookup (y, x) = some .friend := by
  have hstep : ∀ s act t, OnlyAdds env a b w₀ s act ∧ NotStale s act → (server env).step s act = some t →
      Race env a b w₀ s → Race env a b w₀ t := by
    rintro s act t ⟨hadds, hfresh⟩ hst hs
    exact race_step hab hadds hfresh hst hs
  have hrace : Race env a b w₀ t := h.invariant hstep (race_start n hnone hnone')
  have hsettled := hrace.settled hqueue hthreads harrivals
  refine ⟨hsettled, ?_⟩
  rintro x y (⟨rfl, rfl⟩ | ⟨rfl, rfl⟩) hrequest
  · rcases hsettled with ⟨hown, -⟩ | ⟨-, hother⟩ | ⟨hown, -⟩
    · cases hown.symm.trans hrequest
    · exact friends_of_add hab hrequest hother
    · cases hown.symm.trans hrequest
  · rcases hsettled with ⟨-, hother⟩ | ⟨-, hother⟩ | ⟨hown, -⟩
    · cases hother.symm.trans hrequest
    · cases hother.symm.trans hrequest
    · exact friends_of_add hab.symm hrequest hown

end Workers

/-- Ann is logged in on connection 1, bob on connection 2. -/
def annAndBobOnline : World :=
  serve .still (logsIn 2 "bob" "b") (serve .still (logsIn 1 "ann" "a") (World.init annAndBob))

theorem towards_ann : Towards .still annAndBobOnline 3 4 (addsFriend 1 "bob") := ⟨rfl, rfl, "bob", rfl, rfl⟩

theorem towards_bob : Towards .still annAndBobOnline 4 3 (addsFriend 2 "ann") := ⟨rfl, rfl, "ann", rfl, rfl⟩

/-- Ann's request and bob's, on two workers: bob's has read that there is no row of his, then ann's inserts hers, and
bob's reads it. -/
def crossing : List (Pool.Action Activity) :=
  [.enqueue (addsFriend 1 "bob"), .enqueue (addsFriend 2 "ann"), .dequeue 0, .dequeue 1] ++
    List.replicate 4 (.work 1) ++ List.replicate 6 (.work 0) ++ List.replicate 3 (.work 1) ++
    List.replicate 4 (.work 0) ++ List.replicate 6 (.work 1)

theorem settled_of_run_crossing :
    ∃ t, (server .still).Run (fun s act => OnlyAdds .still 3 4 annAndBobOnline s act ∧ NotStale s act)
        (Pool.start 2 annAndBobOnline) crossing t ∧ t.shared.db.friend.lookup (3, 4) = some .friend ∧
      Settled (t.shared.db.friend.lookup (3, 4)) (t.shared.db.friend.lookup (4, 3)) := by
  obtain ⟨t, hrun, hrow, hqueue, hthreads, harrivals⟩ : ∃ t,
      (server .still).Run (fun s act => OnlyAdds .still 3 4 annAndBobOnline s act ∧ NotStale s act)
        (Pool.start 2 annAndBobOnline) crossing t ∧ t.shared.db.friend.lookup (3, 4) = some .friend ∧
      t.queue = [] ∧ t.threads = [] ∧ t.arrivals ≠ [] := by
    refine ⟨_, .cons ⟨⟨3, 4, .inl ⟨rfl, rfl⟩, towards_ann⟩, trivial⟩ rfl
      (.cons ⟨⟨4, 3, .inr ⟨rfl, rfl⟩, towards_bob⟩, trivial⟩ rfl
      (.cons ⟨trivial, trivial⟩ rfl (.cons ⟨trivial, trivial⟩ rfl
      (.cons ⟨trivial, ?_⟩ rfl (.cons ⟨trivial, ?_⟩ rfl (.cons ⟨trivial, ?_⟩ rfl (.cons ⟨trivial, ?_⟩ rfl
      (.cons ⟨trivial, ?_⟩ rfl (.cons ⟨trivial, ?_⟩ rfl (.cons ⟨trivial, ?_⟩ rfl (.cons ⟨trivial, ?_⟩ rfl
      (.cons ⟨trivial, ?_⟩ rfl (.cons ⟨trivial, ?_⟩ rfl (.cons ⟨trivial, ?_⟩ rfl (.cons ⟨trivial, ?_⟩ rfl
      (.cons ⟨trivial, ?_⟩ rfl (.cons ⟨trivial, ?_⟩ rfl (.cons ⟨trivial, ?_⟩ rfl (.cons ⟨trivial, ?_⟩ rfl
      (.cons ⟨trivial, ?_⟩ rfl (.cons ⟨trivial, ?_⟩ rfl (.cons ⟨trivial, ?_⟩ rfl (.cons ⟨trivial, ?_⟩ rfl
      (.cons ⟨trivial, ?_⟩ rfl (.cons ⟨trivial, ?_⟩ rfl (.cons ⟨trivial, ?_⟩ rfl (.nil _))))))))))))))))))))))))))),
      rfl, rfl, rfl, by decide⟩
    -- a worker about to insert a request sees no row of the other side
    all_goals
      rintro _ _ _ _ _ ⟨⟩ hrest ⟨-, hother⟩
      cases hrest <;> cases hother
  exact ⟨t, hrun, hrow, (settled_of_run (by decide) rfl rfl hrun hqueue hthreads harrivals).1⟩

/-- Both read that there is no row, and both ask: what is left neither of them can complete. -/
theorem requests_cross :
    ∃ t, (server .still).Run (OnlyAdds .still 3 4 annAndBobOnline) (Pool.start 2 annAndBobOnline)
        ([.enqueue (addsFriend 1 "bob"), .enqueue (addsFriend 2 "ann"), .dequeue 0, .dequeue 1] ++
          (List.replicate 5 (.work 0) ++ List.replicate 5 (.work 1)) ++
          (List.replicate 5 (.work 0) ++ List.replicate 5 (.work 1))) t ∧
      annAndBobOnline.db.friend.lookup (3, 4) = none ∧ annAndBobOnline.db.friend.lookup (4, 3) = none ∧
      t.queue = [] ∧ t.threads = [] ∧ t.arrivals ≠ [] ∧
      t.shared.db.friend.lookup (3, 4) = some .request ∧ t.shared.db.friend.lookup (4, 3) = some .request ∧
      FriendOp.apply t.shared.db.friend (.add 3 4) = t.shared.db.friend ∧
      FriendOp.apply t.shared.db.friend (.add 4 3) = t.shared.db.friend := by
  obtain ⟨t, hrun, hfinal⟩ : ∃ t, (server .still).exec (Pool.start 2 annAndBobOnline)
        ([.enqueue (addsFriend 1 "bob"), .enqueue (addsFriend 2 "ann"), .dequeue 0, .dequeue 1] ++
          (List.replicate 5 (.work 0) ++ List.replicate 5 (.work 1)) ++
          (List.replicate 5 (.work 0) ++ List.replicate 5 (.work 1))) = some t ∧
      t.queue = [] ∧ t.threads = [] ∧ t.arrivals ≠ [] ∧
      t.shared.db.friend.lookup (3, 4) = some .request ∧ t.shared.db.friend.lookup (4, 3) = some .request ∧
      FriendOp.apply t.shared.db.friend (.add 3 4) = t.shared.db.friend ∧
      FriendOp.apply t.shared.db.friend (.add 4 3) = t.shared.db.friend :=
    ⟨_, rfl, rfl, rfl, by decide, rfl, rfl, rfl, rfl⟩
  refine ⟨t, Machine.run_of_exec_of (fun act hact s => ?_) hrun, rfl, rfl, hfinal⟩
  simp only [List.mem_append, List.mem_cons, List.not_mem_nil, or_false, List.mem_replicate] at hact
  rcases hact with ((rfl | rfl | rfl | rfl) | ⟨-, rfl⟩ | ⟨-, rfl⟩) | ⟨-, rfl⟩ | ⟨-, rfl⟩ <;> try trivial
  · exact ⟨3, 4, .inl ⟨rfl, rfl⟩, towards_ann⟩
  · exact ⟨4, 3, .inr ⟨rfl, rfl⟩, towards_bob⟩

end Chatroom.Service
