import Mathlib.Data.List.Forall2
import Chatroom.Codec.JsonParser

/-!
# The formats of the messages

What a client and the server can rely on: the fields of every request and of every reply, with their types. A list
is an array of strings, each the text of a row. A message that has the format of its id is a value that the library
reads back (`Conforms.valid`), and each of its fields is found with its type (`Conforms.field`).
-/

namespace Chatroom

open Json

/-- What an `int` holds. -/
def IsInt (n : ℤ) : Prop := -2 ^ 31 ≤ n ∧ n < 2 ^ 31

inductive Scalar where
  | msg (m : EnMsgType)
  | int
  | size
  | string
  | bool

inductive FieldType where
  | scalar (t : Scalar)
  /-- a list whose rows have these fields -/
  | rows (row : List (String × Scalar))

instance : Coe Scalar FieldType := ⟨.scalar⟩

abbrev Format := List (String × FieldType)

/-! ## What has a format -/

def Scalar.Holds : Scalar → Json → Prop
  | msg m, value => value = .msg m
  | int, value => ∃ n, IsInt n ∧ value = .num n
  | size, value => ∃ n : ℕ, n < 2 ^ 64 ∧ value = .num n
  | string, value => ∃ s, value = .str s
  | bool, value => ∃ b, value = .bool b

/-- The fields have the names and the types that they should have, in that order. -/
def HaveTypes {τ : Type} (Holds : τ → Json → Prop) (types : List (String × τ)) (fields : List (String × Json)) : Prop :=
  List.Forall₂ (fun t f => f.1 = t.1 ∧ Holds t.2 f.2) types fields

/-- An element of a list: the text of an object. -/
def rowText (fields : List (String × Json)) : Json := .str (.ofList (Json.obj fields).text)

def FieldType.Holds : FieldType → Json → Prop
  | scalar t, value => t.Holds value
  | rows row, value => ∃ items : List (List (String × Json)),
      (∀ fields ∈ items, HaveTypes Scalar.Holds row fields) ∧ value = .arr (items.map rowText)

/-- The message is an object with the fields of the format, and no others. -/
def Conforms (format : Format) (js : Json) : Prop := ∃ fields, js = .obj fields ∧ HaveTypes FieldType.Holds format fields

section

variable {τ : Type} {Holds : τ → Json → Prop} {t : String × τ} {types : List (String × τ)} {f : String × Json}
  {fields : List (String × Json)}

@[simp] theorem haveTypes_nil : HaveTypes Holds [] [] := .nil

@[simp] theorem haveTypes_cons : HaveTypes Holds (t :: types) (f :: fields) ↔
    (f.1 = t.1 ∧ Holds t.2 f.2) ∧ HaveTypes Holds types fields := List.forall₂_cons

@[simp] theorem holds_scalar {t : Scalar} {value : Json} : (FieldType.scalar t).Holds value ↔ t.Holds value := .rfl

@[simp] theorem msg_inj {m m' : EnMsgType} : Json.msg m = .msg m' ↔ m = m' := by simp [msg]

@[simp] theorem holds_msg {m m' : EnMsgType} : (Scalar.msg m).Holds (.msg m') ↔ m' = m := by simp [Scalar.Holds]

@[simp] theorem holds_int {n : ℤ} : Scalar.int.Holds (.num n) ↔ IsInt n := by simp [Scalar.Holds]

@[simp] theorem holds_size {n : ℕ} : Scalar.size.Holds (.num n) ↔ n < 2 ^ 64 := by simp [Scalar.Holds]

@[simp] theorem holds_string (s : String) : Scalar.string.Holds (.str s) := ⟨s, rfl⟩

@[simp] theorem holds_bool (b : Bool) : Scalar.bool.Holds (.bool b) := ⟨b, rfl⟩

theorem conforms_obj {format : Format} : Conforms format (.obj fields) ↔ HaveTypes FieldType.Holds format fields := by
  constructor
  · rintro ⟨fields', heq, h⟩
    obtain rfl := Json.obj.inj heq
    exact h
  · exact fun h => ⟨fields, rfl, h⟩

end

/-! ## The formats -/

/-- A message with nothing but its id. -/
def bare (m : EnMsgType) : Format := [("msgid", Scalar.msg m)]

/-- A message about a group. -/
def aboutGroup (m : EnMsgType) : Format := [("groupid", Scalar.int), ("msgid", Scalar.msg m)]

/-- A message about a user in a group. -/
def aboutMember (m : EnMsgType) : Format :=
  [("groupid", Scalar.int), ("msgid", Scalar.msg m), ("userid", Scalar.int)]

/-- The fields of a request. -/
def requestFormat (m : EnMsgType) : Format :=
  match m with
  | .regMsg | .loginMsg => [("msgid", Scalar.msg m), ("name", Scalar.string), ("password", Scalar.string)]
  | .addFriend => [("add_name", Scalar.string), ("msgid", Scalar.msg m)]
  | .deleteFriend => [("del_id", Scalar.int), ("msgid", Scalar.msg m)]
  | .blockFriend => [("block_id", Scalar.int), ("msgid", Scalar.msg m)]
  | .unblockFriend => [("msgid", Scalar.msg m), ("unblock_id", Scalar.int)]
  | .checkBlock => [("check_id", Scalar.int), ("msgid", Scalar.msg m)]
  | .privateChat =>
    [("from_name", Scalar.string), ("id", Scalar.int), ("msg", Scalar.string), ("msgid", Scalar.msg m)]
  | .createGroup => [("groupname", Scalar.string), ("msgid", Scalar.msg m)]
  | .requestGroup => [("add_group_id", Scalar.int), ("msgid", Scalar.msg m)]
  | .groupRequestList | .quitGroup | .displayGroupMemberList | .displayGroupSetManagerMemberList | .checkGroupMember
  | .masterDeleteGroup | .groupChatHistory => aboutGroup m
  | .addGroup | .setManager | .cancelManager | .kickSomeone => aboutMember m
  | .groupChat =>
    [("from_name", Scalar.string), ("groupid", Scalar.int), ("msg", Scalar.string), ("msgid", Scalar.msg m)]
  | .sendFile => [("filename", Scalar.string), ("filesize", Scalar.size), ("msgid", Scalar.msg m)]
  | .sendFileDatabase =>
    [("filename", Scalar.string), ("msgid", Scalar.msg m), ("receiver", Scalar.int), ("sender", Scalar.int)]
  | .receiveFile => [("filename", Scalar.string), ("msgid", Scalar.msg m)]
  | .privateChatHistory => [("id", Scalar.int), ("msgid", Scalar.msg m)]
  | _ => bare m

/-- A row of a list of users or groups. -/
def named : List (String × Scalar) := [("id", .int), ("name", .string)]

def userRow : List (String × Scalar) := named ++ [("state", .string)]

def memberRow : List (String × Scalar) := named ++ [("role", .string)]

def fileRow : List (String × Scalar) :=
  [("filename", .string), ("receiver", .int), ("sender", .int), ("time", .string)]

def privateRow : List (String × Scalar) := [("from", .int), ("msg", .string), ("time", .string), ("to", .int)]

def groupRow : List (String × Scalar) := [("from", .int), ("groupid", .int), ("msg", .string), ("time", .string)]

/-- The fields of what the server sends. -/
def replyFormat (m : EnMsgType) : Format :=
  match m with
  | .regSuccess => [("id", Scalar.int), ("msgid", Scalar.msg m)]
  | .loginSuccess =>
    [("id", Scalar.int), ("msg", Scalar.string), ("msgid", Scalar.msg m), ("name", Scalar.string)]
  | .loginFail => [("msg", Scalar.string), ("msgid", Scalar.msg m)]
  | .friendOnline => [("id", Scalar.int), ("msgid", Scalar.msg m), ("name", Scalar.string)]
  | .displayAlluserList => [("msgid", Scalar.msg m), ("users", .rows userRow)]
  | .addFriendSuccess =>
    [("friend_id", Scalar.int), ("friend_name", Scalar.string), ("friend_state", Scalar.string),
      ("msgid", Scalar.msg m)]
  | .theOtherAgreeFriendRequest => [("friend_name", Scalar.string), ("msgid", Scalar.msg m)]
  | .checkBlock => [("msgid", Scalar.msg m), ("state1", Scalar.string), ("state2", Scalar.string)]
  | .blockFriendList => [("blocks", .rows named), ("msgid", Scalar.msg m)]
  | .privateChat =>
    [("from_name", Scalar.string), ("msg", Scalar.string), ("msgid", Scalar.msg m), ("time", Scalar.string)]
  | .displayFriendList => [("friends", .rows userRow), ("msgid", Scalar.msg m)]
  | .friendRequestList | .displayGroupRequest => [("msgid", Scalar.msg m), ("requests", .rows named)]
  | .displayAllgroupList | .displayOwnGroupList => [("groups", .rows named), ("msgid", Scalar.msg m)]
  | .groupRequest => aboutMember m
  | .groupRequestAccepted => [("accept_id", Scalar.int), ("groupid", Scalar.int), ("msgid", Scalar.msg m)]
  | .displayGroupMemberList | .displaySetManagerMemberList =>
    [("members", .rows memberRow), ("msgid", Scalar.msg m)]
  | .setManagerNotice | .kickSomeoneNotice => aboutGroup m
  | .checkIfGroupMember => [("msgid", Scalar.msg m), ("state", Scalar.bool)]
  | .groupChat =>
    [("from_name", Scalar.string), ("groupid", Scalar.int), ("msg", Scalar.string), ("msgid", Scalar.msg m),
      ("time", Scalar.string)]
  | .viewFile => [("files", .rows fileRow), ("msgid", Scalar.msg m)]
  | .sendFileServer => [("filename", Scalar.string), ("filesize", Scalar.size), ("msgid", Scalar.msg m)]
  | .displayPrivateHistory => [("history", .rows privateRow), ("msgid", Scalar.msg m)]
  | .displayGroupHistory => [("history", .rows groupRow), ("msgid", Scalar.msg m)]
  | _ => bare m

/-! ## Reading a message -/

theorem IsInt.inRange {n : ℤ} (h : IsInt n) : InRange n := by
  obtain ⟨h₁, h₂⟩ := h
  exact ⟨by omega, by omega⟩

theorem isInt_getInt {js : Json} {n : ℤ} (h : js.getInt = .ok n) : IsInt n := by
  cases js with
  | num m =>
    have hle : _ ≤ m.bmod (2 ^ 32) := Int.le_bmod (by decide)
    have hlt : m.bmod (2 ^ 32) < _ := Int.bmod_lt (by decide)
    obtain rfl := Except.ok.inj h
    unfold castInt IsInt
    omega
  | real x =>
    have hle := x.asInt.le_toInt
    have hlt := x.asInt.toInt_lt
    obtain rfl := Except.ok.inj h
    unfold Double.castInt IsInt
    split
    case isTrue hx => exact hx
    case isFalse => exact ⟨hle, hlt⟩
  | bool b =>
    obtain rfl := Except.ok.inj h
    cases b <;> exact ⟨by decide, by decide⟩
  | _ => cases h

theorem isInt_intField {js : Json} {key : String} {n : ℤ} (h : js.intField key = .ok n) : IsInt n := by
  unfold intField at h
  cases hfield : js.field key with
  | error e =>
    rw [hfield] at h
    cases h
  | ok value =>
    rw [hfield] at h
    exact isInt_getInt h

section HaveTypes

variable {τ : Type} {Holds : τ → Json → Prop} {types : List (String × τ)} {fields : List (String × Json)}

theorem HaveTypes.keys (h : HaveTypes Holds types fields) : fields.map Prod.fst = types.map Prod.fst := by
  induction h with
  | nil => rfl
  | cons hf _ ih => rw [List.map_cons, List.map_cons, hf.1, ih]

theorem HaveTypes.lookup (h : HaveTypes Holds types fields) {key : String} {t : τ} (ht : types.lookup key = some t) :
    ∃ value, fields.lookup key = some value ∧ Holds t value := by
  induction h with
  | nil => cases ht
  | @cons a f types fields hf _ ih =>
    rw [List.lookup_cons] at ht ⊢
    rw [hf.1]
    cases hkey : key == a.1 with
    | true =>
      rw [hkey] at ht
      obtain rfl := Option.some.inj ht
      exact ⟨f.2, rfl, hf.2⟩
    | false =>
      rw [hkey] at ht
      exact ih ht

theorem HaveTypes.valid (h : HaveTypes Holds types fields) (hsorted : (types.map Prod.fst).Pairwise keyLt)
    (hvalid : ∀ t ∈ types, ∀ value, Holds t.2 value → Valid False value) : Valid False (.obj fields) := by
  refine .obj ?_ ?_
  · rw [← h.keys] at hsorted
    exact List.pairwise_map.1 hsorted
  · clear hsorted
    induction h with
    | nil => simp
    | cons hf _ ih =>
      obtain ⟨hhead, htail⟩ := List.forall_mem_cons.1 hvalid
      exact List.forall_mem_cons.2 ⟨hhead _ hf.2, ih htail⟩

end HaveTypes

theorem Scalar.Holds.valid {t : Scalar} {value : Json} (h : t.Holds value) : Valid False value := by
  cases t with
  | msg m =>
    obtain rfl := h
    have hlt : m.ctorIdx < 89 := by cases m <;> decide
    refine .num ⟨?_, ?_⟩ <;> simp only [EnMsgType.code] <;> omega
  | int =>
    obtain ⟨n, hn, rfl⟩ := h
    exact .num hn.inRange
  | size =>
    obtain ⟨n, hn, rfl⟩ := h
    exact .num ⟨by omega, by exact_mod_cast hn⟩
  | string =>
    obtain ⟨s, rfl⟩ := h
    exact .str s
  | bool =>
    obtain ⟨b, rfl⟩ := h
    exact .bool b

theorem FieldType.Holds.valid {t : FieldType} {value : Json} (h : t.Holds value) : Valid False value := by
  cases t with
  | scalar t => exact Scalar.Holds.valid h
  | rows row =>
    obtain ⟨items, -, rfl⟩ := h
    refine .arr fun js hjs => ?_
    obtain ⟨fields, -, rfl⟩ := List.mem_map.1 hjs
    exact .str _

theorem sorted_requestFormat (m : EnMsgType) : ((requestFormat m).map Prod.fst).Pairwise keyLt := by
  cases m <;> decide

theorem sorted_replyFormat (m : EnMsgType) : ((replyFormat m).map Prod.fst).Pairwise keyLt := by
  cases m <;> decide

theorem lookup_msgid_requestFormat (m : EnMsgType) : (requestFormat m).lookup "msgid" = some (.scalar (.msg m)) := by
  cases m <;> simp [requestFormat, bare, aboutGroup, aboutMember, List.lookup_cons]

theorem lookup_msgid_replyFormat (m : EnMsgType) : (replyFormat m).lookup "msgid" = some (.scalar (.msg m)) := by
  cases m <;> simp [replyFormat, bare, aboutGroup, aboutMember, List.lookup_cons]

namespace Conforms

variable {format : Format} {js : Json}

/-- **A message with its format is one of the values that the library reads back.** -/
theorem valid (h : Conforms format js) (hsorted : (format.map Prod.fst).Pairwise keyLt) : Valid False js := by
  obtain ⟨fields, rfl, hfields⟩ := h
  exact hfields.valid hsorted fun t _ value => FieldType.Holds.valid

theorem field (h : Conforms format js) (key : String) {t : FieldType} (ht : format.lookup key = some t) :
    ∃ value, js.field key = .ok value ∧ t.Holds value := by
  obtain ⟨fields, rfl, hfields⟩ := h
  obtain ⟨value, hvalue, hholds⟩ := hfields.lookup ht
  exact ⟨value, by rw [Json.field, hvalue, Option.getD_some], hholds⟩

theorem msgid (h : Conforms format js) {m : EnMsgType} (ht : format.lookup "msgid" = some (.scalar (.msg m))) :
    js.intField "msgid" = .ok m.code := by
  obtain ⟨value, hvalue, rfl⟩ := h.field _ ht
  rw [intField, hvalue]
  exact getInt_msg m

theorem int (h : Conforms format js) (key : String) (ht : format.lookup key = some (.scalar .int)) :
    ∃ n, IsInt n ∧ js.field key = .ok (.num n) ∧ js.intField key = .ok n := by
  obtain ⟨value, hvalue, n, hn, rfl⟩ := h.field _ ht
  refine ⟨n, hn, hvalue, ?_⟩
  rw [intField, hvalue]
  exact congrArg Except.ok (castInt_of_bounds hn.1 hn.2)

theorem size (h : Conforms format js) (key : String) (ht : format.lookup key = some (.scalar .size)) :
    ∃ n, js.sizeField key = .ok n := by
  obtain ⟨value, hvalue, n, hn, rfl⟩ := h.field _ ht
  refine ⟨n, ?_⟩
  rw [sizeField, hvalue]
  exact congrArg Except.ok (castSize_natCast hn)

theorem string (h : Conforms format js) (key : String) (ht : format.lookup key = some (.scalar .string)) :
    ∃ s, js.stringField key = .ok s := by
  obtain ⟨value, hvalue, s, rfl⟩ := h.field _ ht
  exact ⟨s, by rw [stringField, hvalue]; rfl⟩

end Conforms

end Chatroom
