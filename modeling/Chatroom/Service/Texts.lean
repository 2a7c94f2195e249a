import Chatroom.Database.UserText
import Chatroom.Service.Server

/-!
# Statements that are not read as they are meant

`reg`, `login`, `handleAddFriend`, `handleCreateGroup` and `handleSendFileDataBase` hand texts of the client to
`sprintf` as they came. `exec` is what the statements do as they are meant; here they do so only where every text
stays inside its literal and its buffer (`Cmd.Worded`). What any other statement answers and leaves is a parameter,
`other`: it may change the tables in any way, set the column `state` of a user to `NULL`, and overrun `sql[1024]`.

A run in which every statement is read as it is meant is a run of `serial` (`serial_of_worded`): what holds in all
of these holds in it.
-/

namespace Chatroom.Service

open Lib

/-! ## The statements -/

/-- The statement of the command fits into its buffer and is read as it is meant. -/
def Cmd.Worded : Cmd → Prop
  | .insertUser name password _ =>
    Database.Sends (Database.Stays · (Database.insertParts name password))
      (Database.UserModel.insert { name, password })
  | .queryUserByName name =>
    Database.Sends (Database.Stays · (Database.queryByNameParts name)) (Database.UserModel.queryByName name)
  | .createGroup name =>
    Database.Sends (Database.Stays · (Database.createGroupParts name)) (Database.GroupModel.createGroup { name })
  | .insertFile senderId receiverId fileName =>
    ∀ sql ∈ Database.FileModel.insertFile senderId receiverId fileName true,
      Database.Stays sql (Database.insertFileParts senderId receiverId fileName)
  | _ => True

instance : DecidablePred Cmd.Worded := fun c => by
  cases c with
  | insertUser name password _ => exact decidable_of_iff _ (Database.stays_insert name password).symm
  | queryUserByName name => exact decidable_of_iff _ (Database.stays_queryByName name).symm
  | createGroup name => exact decidable_of_iff _ (Database.stays_createGroup name).symm
  | insertFile senderId receiverId fileName =>
    exact decidable_of_iff _ (Database.stays_insertFile senderId receiverId fileName).symm
  | _ => exact isTrue trivial

/-- The state of the service, and the users whose column `state` is `NULL`: what `db` has there for them is not looked
at. -/
structure NullableWorld extends World where
  stateNull : ℤ → Bool

/-- No column is `NULL`. -/
def World.nonNull (w : World) : NullableWorld := ⟨w, fun _ => false⟩

namespace NullableWorld

variable (env : Environment) (s : NullableWorld)

/-- The command makes a `std::string` of a `NULL`. -/
def readsNull : Cmd → Bool
  | .queryUser id => (s.db.user.lookup id).isSome && s.stateNull id
  | .queryUserByName name =>
    s.db.user.rows.any fun r => decide (env.collate r.2.name = env.collate name) && s.stateNull r.1
  | .queryUsers => s.db.user.rows.any fun r => s.stateNull r.1
  | .queryFriends userid => (s.db.queryFriends userid).any fun user => s.stateNull user.id
  | _ => false

/-- The users whose state is `NULL` after the command. `resetState` sets only those that are online. -/
def stateNullAfter : Cmd → ℤ → Bool
  | .insertUser name password state =>
    (s.db.insertUser env.collate name password state).1.elim s.stateNull fun id => Function.update s.stateNull id false
  | .updateState id _ => Function.update s.stateNull id false
  | _ => s.stateNull

end NullableWorld

/-- What a statement that is not read as it is meant answers, and what it leaves. -/
abbrev Other := (c : Cmd) → NullableWorld → Except Fault (Ans c) × NullableWorld

/-- The buffer is overrun, and nothing more is known of the handler. -/
def Other.overrun : Other := fun _ s => (.error .undefined, s)

section Exec

variable (env : Environment) (other : Other)

def execSql (c : Cmd) (s : NullableWorld) : Except Fault (Ans c) × NullableWorld :=
  if c.Worded then
    if s.readsNull env c then (.error (.exn .logicError), s)
    else (.ok (exec env c s.toWorld).1, ⟨(exec env c s.toWorld).2, s.stateNullAfter env c⟩)
  else other c s

/-- `serve`, over these statements. -/
def serveSql (a : Activity) (s : NullableWorld) : NullableWorld := (a.body.runThrowing (execSql env other) s).2

/-- `boot`, over these statements. -/
def bootSql (s : NullableWorld) : NullableWorld :=
  (initServer.runThrowing (execSql env other) ⟨s.toWorld.restart, s.stateNull⟩).2

/-- `serial`, over these statements. -/
def serialSql : Machine NullableWorld (Option Activity) where
  step s a := match a with
    | some a => some (serveSql env other a s)
    | none => some (bootSql env other s)

end Exec

/-! ## Runs of statements that are -/

section Worded

variable {env : Environment} {other : Other}

theorem readsNull_nonNull (c : Cmd) (w : World) : w.nonNull.readsNull env c = false := by
  cases c <;> first | rfl | simp [NullableWorld.readsNull, World.nonNull]

theorem stateNullAfter_nonNull (c : Cmd) (w : World) : w.nonNull.stateNullAfter env c = fun _ => false := by
  cases c <;> first | rfl | skip
  case insertUser name password state =>
    show (w.db.insertUser env.collate name password state).1.elim _ _ = _
    cases (w.db.insertUser env.collate name password state).1 with
    | none => rfl
    | some id => exact Function.update_eq_self _ _
  case updateState id state => exact Function.update_eq_self _ _

theorem execSql_nonNull {c : Cmd} (hc : c.Worded) (w : World) :
    execSql env other c w.nonNull = (.ok (exec env c w).1, (exec env c w).2.nonNull) := by
  rw [execSql, if_pos hc, readsNull_nonNull, if_neg (by simp), stateNullAfter_nonNull]
  rfl

theorem runThrowing_nonNull {α : Type} {p : Task α} {w : World} (h : ∀ c ∈ p.trace (exec env) w, c.Worded) :
    p.runThrowing (execSql env other) w.nonNull = ((p.run (exec env) w).1, (p.run (exec env) w).2.nonNull) :=
  Program.runThrowing_of_trace _ _ fun c hc w => execSql_nonNull (h c hc) w

variable (env) in
/-- Every statement of the activity is read as it is meant; a restart sends none with a text. -/
def Worded (w : World) (a : Option Activity) : Prop :=
  ∀ activity ∈ a, ∀ c ∈ activity.body.trace (exec env) w, c.Worded

instance (w : World) (a : Option Activity) : Decidable (Worded env w a) :=
  match a with
  | some a => decidable_of_iff (∀ c ∈ a.body.trace (exec env) w, c.Worded) (by simp [Worded])
  | none => isTrue (by simp [Worded])

theorem serveSql_nonNull {a : Activity} {w : World} (h : Worded env w (some a)) :
    serveSql env other a w.nonNull = (serve env a w).nonNull := by
  rw [serveSql, runThrowing_nonNull (h a rfl)]
  rfl

theorem bootSql_nonNull (w : World) : bootSql env other w.nonNull = (boot env w).nonNull := by
  have hsafe : initServer.Safe (fun c => c.Worded) (fun _ _ => True) fun _ => True := by
    simp only [initServer, groupUserListMapInit, userstateInit, Program.safe_bind, Program.safe_perform]
    refine ⟨trivial, fun groupVec _ => Program.safe_forM (fun group _ => ?_)
      ⟨trivial, fun userVec _ => Program.safe_forM (fun user _ => ?_) trivial⟩⟩
    · exact ⟨trivial, fun _ _ => ⟨trivial, fun _ _ => trivial⟩⟩
    split
    case isTrue => exact ⟨trivial, fun _ _ => trivial⟩
    case isFalse => trivial
  exact congrArg Prod.snd (runThrowing_nonNull (Program.Safe.trace (exec env) hsafe w.restart))

/-- **Where every statement is read as it is meant, the run is one of `serial`.** -/
theorem serial_of_worded {ok : World → Option Activity → Prop} {w : World} {l : List (Option Activity)}
    {s : NullableWorld}
    (h : (serialSql env other).Run (fun s a => Worded env s.toWorld a ∧ ok s.toWorld a) w.nonNull l s) :
    ∃ w', s = w'.nonNull ∧ (serial env).Run ok w l w' := by
  generalize hs : w.nonNull = s₀ at h
  induction h generalizing w with
  | nil => exact ⟨w, hs.symm, .nil w⟩
  | @cons _ t u a l hok hst _ ih =>
    subst hs
    obtain ⟨hworded, hok⟩ := hok
    obtain ⟨v, hv, hstep⟩ : ∃ v, v.nonNull = t ∧ (serial env).step w a = some v := by
      cases a with
      | some a => exact ⟨_, (serveSql_nonNull hworded).symm.trans (Option.some.inj hst), rfl⟩
      | none => exact ⟨_, (bootSql_nonNull w).symm.trans (Option.some.inj hst), rfl⟩
    obtain ⟨w', hw', hrun⟩ := ih hv
    exact ⟨w', hw', .cons hok hstep hrun⟩

/-- The same of a run that begins with a new process. -/
theorem serial_of_worded_boot {ok : World → Option Activity → Prop} {w₀ : World} {l : List (Option Activity)}
    {s : NullableWorld}
    (h : (serialSql env other).Run (fun s a => Worded env s.toWorld a ∧ ok s.toWorld a) (bootSql env other w₀.nonNull)
      l s) :
    ∃ w, s = w.nonNull ∧ (serial env).Run ok (boot env w₀) l w := by
  rw [bootSql_nonNull] at h
  exact serial_of_worded h

theorem serial_of_only_worded {w₀ : World} {l : List (Option Activity)} {s : NullableWorld}
    (h : (serialSql env other).Run (fun s a => Worded env s.toWorld a) (bootSql env other w₀.nonNull) l s) :
    ∃ w, s = w.nonNull ∧ (serial env).Run (fun _ _ => True) (boot env w₀) l w :=
  serial_of_worded_boot (h.mono fun _ _ hok => ⟨hok, trivial⟩)

theorem serialSql_of_serial {ok : World → Option Activity → Prop} {w w' : World} {l : List (Option Activity)}
    (h : (serial env).Run (fun w a => Worded env w a ∧ ok w a) w l w') :
    (serialSql env other).Run (fun s a => Worded env s.toWorld a ∧ ok s.toWorld a) w.nonNull l w'.nonNull := by
  induction h with
  | nil w => exact .nil w.nonNull
  | @cons w v _ a _ hok hst _ ih =>
    refine .cons hok ?_ ih
    cases a with
    | some a => exact congrArg some ((serveSql_nonNull hok.1).trans (congrArg World.nonNull (Option.some.inj hst)))
    | none => exact congrArg some ((bootSql_nonNull w).trans (congrArg World.nonNull (Option.some.inj hst)))

theorem serialSql_of_boot {ok : World → Option Activity → Prop} {w₀ w : World} {l : List (Option Activity)}
    (h : (serial env).Run (fun w a => Worded env w a ∧ ok w a) (boot env w₀) l w) :
    (serialSql env other).Run (fun s a => Worded env s.toWorld a ∧ ok s.toWorld a) (bootSql env other w₀.nonNull) l
      w.nonNull := by
  rw [bootSql_nonNull]
  exact serialSql_of_serial h

end Worded

end Chatroom.Service
