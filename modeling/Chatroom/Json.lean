import Mathlib.Algebra.Group.Int.Defs
import Mathlib.Algebra.Group.Nat.Defs
import Mathlib.Data.List.Basic
import Mathlib.Data.Int.Basic
import Mathlib.Tactic.Common

/-!
# Messages: JSON values and message ids

The part of `json.hpp` the program relies on: the values, `operator[]` with a string key, `get<int>`,
`get<size_t>`, `get<std::string>` and the exceptions they throw. The parser and the serializer are
parameters (`JsonLib`); `Json.dump` is the serializer on the values the program itself builds.
The message ids are those of `public.h`.
-/

namespace Chatroom

abbrev Byte := UInt8
abbrev Bytes := List Byte

abbrev CR : Byte := 13
abbrev LF : Byte := 10

/-- The line terminator of the protocol. -/
abbrev CRLF : Bytes := [CR, LF]

/-! ## Message ids (`public.h`) -/

inductive EnMsgType where
  | needEnter | regMsg | regSuccess | regFail | loginMsg | loginSuccess | loginRepeat | loginFail
  | friendOnline | enterChatroom | displayAlluserList | addFriend | addFriendSuccess
  | addFriendRequest | toAddFriendRequest | theOtherAgreeFriendRequest | updateFriendList
  | deleteFriend | deletedFriendSuccess | deleteFriendSuccess | deleteFriendFail | blockFriend
  | blockFriendSuccess | unblockFriendSuccess | blockFriendFail | unblockFriend | unblockFriendFail
  | displayFriendList | friendRequestList | blockFriendList | checkBlock | privateChat
  | createGroup | createGroupSuccess | createGroupFail | displayAllgroupList | requestGroup
  | groupRequest | requestGroupSuccess | requestGroupFail | groupRequestList | displayGroupRequest
  | addGroup | displayGroupRequestFail | addGroupFail | addGroupSuccess | groupRequestAccepted
  | quitGroup | quitGroupFail | quitGroupSuccess | displayOwnGroupList | displayGroupMemberList
  | displayGroupMemberFail | displayGroupSetManagerMemberList | displaySetManagerMemberFail
  | displaySetManagerMemberList | setManager | setManagerSuccess | setManagerFail | cancelManager
  | cancelManagerFail | cancelManagerSuccess | kickSomeone | kickSomeoneFail | kickSomeoneSuccess
  | checkGroupMember | checkIfGroupMember | groupChat | masterDeleteGroup | masterDeleteGroupFail
  | masterDeleteGroupSuccess | sendFile | sendFileEnd | sendFileDatabase | sendFileDatabaseSuccess
  | sendFileServer | viewFile | receiveFile | receiveFileFinish | privateChatHistory
  | displayPrivateHistory | groupChatHistory | displayGroupHistory | clientLongtimeExit
  | receiveFileFail | alreadyInGroup | setManagerNotice | kickSomeoneNotInGroup | kickSomeoneNotice
  deriving DecidableEq, Repr

/-- The value of the enumerator, as it stands in the field `msgid`. -/
def EnMsgType.code (m : EnMsgType) : ℤ := m.ctorIdx

theorem EnMsgType.code_injective : Function.Injective EnMsgType.code := by
  intro a b h
  have h : a.ctorIdx = b.ctorIdx := Int.ofNat_inj.mp h
  rw [← a.ofNat_ctorIdx, h, b.ofNat_ctorIdx]

@[simp] theorem EnMsgType.code_inj {a b : EnMsgType} : a.code = b.code ↔ a = b :=
  EnMsgType.code_injective.eq_iff

/-! ## JSON values -/

/-- What `json::parse`, `operator[]` and `get` throw, and the `std::logic_error` of a `std::string` that is made of a
null pointer. -/
inductive Exn where
  | parseError | typeError | outOfRange | logicError
  deriving DecidableEq, Repr

/-- The double `m * 2 ^ e`. What a cast to an integer type that does not hold it gives is undefined; `asInt` and
`asSize` are what it gives in the compiled program. -/
structure Double where
  m : ℤ
  e : ℤ
  asInt : Int32
  asSize : UInt64
  deriving DecidableEq

namespace Double

/-- The double cut towards zero. -/
def truncate (x : Double) : ℤ := if 0 ≤ x.e then x.m * 2 ^ x.e.toNat else x.m.tdiv (2 ^ (-x.e).toNat)

/-- `static_cast<int>` -/
def castInt (x : Double) : ℤ := if -2 ^ 31 ≤ x.truncate ∧ x.truncate < 2 ^ 31 then x.truncate else x.asInt.toInt

/-- `static_cast<size_t>` -/
def castSize (x : Double) : ℕ := if 0 ≤ x.truncate ∧ x.truncate < 2 ^ 64 then x.truncate.toNat else x.asSize.toNat

end Double

/-- A JSON value; the fields of an object stand in key order, as `std::map` keeps them. -/
inductive Json where
  | null
  | bool (b : Bool)
  | num (n : ℤ)
  | real (x : Double)
  | str (s : String)
  | arr (items : List Json)
  | obj (fields : List (String × Json))

namespace Json

/-- `static_cast<int>` of an integer. -/
def castInt (n : ℤ) : ℤ := n.bmod (2 ^ 32)

/-- `static_cast<size_t>` of an integer. -/
def castSize (n : ℤ) : ℕ := (n % 2 ^ 64).toNat

/-- `js[key]`: a missing key reads as `null`, and so does any key of `null`. -/
def field (js : Json) (key : String) : Except Exn Json :=
  match js with
  | .obj fields => .ok ((fields.lookup key).getD .null)
  | .null => .ok .null
  | _ => .error .typeError

/-- `get<int>()`. -/
def getInt : Json → Except Exn ℤ
  | .num n => .ok (castInt n)
  | .real x => .ok x.castInt
  | .bool b => .ok b.toNat
  | _ => .error .typeError

/-- `get<size_t>()`. -/
def getSize : Json → Except Exn ℕ
  | .num n => .ok (castSize n)
  | .real x => .ok x.castSize
  | _ => .error .typeError

/-- `get<std::string>()`. -/
def getString : Json → Except Exn String
  | .str s => .ok s
  | _ => .error .typeError

/-- `js[key].get<int>()`. -/
def intField (js : Json) (key : String) : Except Exn ℤ := js.field key >>= getInt

/-- `js[key].get<size_t>()`. -/
def sizeField (js : Json) (key : String) : Except Exn ℕ := js.field key >>= getSize

/-- `js[key].get<std::string>()`. -/
def stringField (js : Json) (key : String) : Except Exn String := js.field key >>= getString

/-- A message id as the value of a field. -/
def msg (m : EnMsgType) : Json := .num m.code

theorem castInt_of_bounds {n : ℤ} (h₁ : -2 ^ 31 ≤ n) (h₂ : n < 2 ^ 31) : castInt n = n := by
  unfold castInt
  exact Int.bmod_eq_of_le (by omega) (by omega)

theorem castSize_natCast {n : ℕ} (h : n < 2 ^ 64) : castSize n = n := by
  unfold castSize
  omega

@[simp] theorem getInt_msg (m : EnMsgType) : (msg m).getInt = .ok m.code := by
  have h : m.ctorIdx < 89 := by cases m <;> decide
  simp only [msg, getInt]
  rw [castInt_of_bounds] <;> simp only [EnMsgType.code] <;> omega

/-- An integer field is read off an object (or off `null`, which has none). -/
theorem isObj_of_intField {js : Json} {key : String} {n : ℤ} (h : js.intField key = .ok n) :
    ∃ fields, js = .obj fields := by
  cases js with
  | obj fields => exact ⟨fields, rfl⟩
  | null => simp [intField, field, getInt, bind, Except.bind] at h
  | _ => simp [intField, field, bind, Except.bind] at h

/-! ## The serializer on the program's own values -/

/-- The characters of a string, each in UTF-8. -/
def utf8 (cs : List Char) : Bytes := cs.flatMap String.utf8EncodeChar

/-- A lower-case hexadecimal digit. -/
def hexDigit (n : ℕ) : Char := ("0123456789abcdef".toList).getD n '0'

/-- `serializer::dump_escaped` on one character. -/
def escapeChar (c : Char) : List Char :=
  if c = '\x08' then ['\\', 'b']
  else if c = '\t' then ['\\', 't']
  else if c = '\n' then ['\\', 'n']
  else if c = '\x0c' then ['\\', 'f']
  else if c = '\r' then ['\\', 'r']
  else if c = '"' then ['\\', '"']
  else if c = '\\' then ['\\', '\\']
  else if c.toNat ≤ 0x1f then ['\\', 'u', '0', '0', hexDigit (c.toNat / 16), hexDigit (c.toNat % 16)]
  else [c]

/-- A quoted string. -/
def quote (s : String) : List Char := '"' :: s.toList.flatMap escapeChar ++ ['"']

mutual
/-- `dump()` without indentation. The program never dumps a double, so no text is given to one. -/
def text : Json → List Char
  | .null => "null".toList
  | .bool b => (toString b).toList
  | .num n => (toString n).toList
  | .real _ => []
  | .str s => quote s
  | .arr items => '[' :: textItems items ++ [']']
  | .obj fields => '{' :: textFields fields ++ ['}']
def textItems : List Json → List Char
  | [] => []
  | [js] => text js
  | js :: rest => text js ++ ',' :: textItems rest
def textFields : List (String × Json) → List Char
  | [] => []
  | [(key, js)] => quote key ++ ':' :: text js
  | (key, js) :: rest => quote key ++ ':' :: text js ++ ',' :: textFields rest
end

def dump (js : Json) : Bytes := utf8 js.text

/-! ### Strings and numbers can be read back -/

/-- The value of a lower-case hexadecimal digit. -/
def hexValue (d : Char) : ℕ := "0123456789abcdef".toList.idxOf d

/-- Reads the first character of a quoted text. -/
def unescapeFirst : List Char → Option (Char × List Char)
  | '\\' :: 'b' :: l => some ('\x08', l)
  | '\\' :: 't' :: l => some ('\t', l)
  | '\\' :: 'n' :: l => some ('\n', l)
  | '\\' :: 'f' :: l => some ('\x0c', l)
  | '\\' :: 'r' :: l => some ('\r', l)
  | '\\' :: 'u' :: _ :: _ :: d :: e :: l => some (Char.ofNat (hexValue d * 16 + hexValue e), l)
  | '\\' :: c :: l => some (c, l)
  | c :: l => some (c, l)
  | [] => none

theorem hexValue_hexDigit : ∀ n < 16, hexValue (hexDigit n) = n := by decide +kernel

theorem unescapeFirst_escapeChar (c : Char) (l : List Char) : unescapeFirst (escapeChar c ++ l) = some (c, l) := by
  unfold escapeChar
  split_ifs with hb ht hn hf hr hquote hslash hctrl
  · simp [unescapeFirst, hb]
  · simp [unescapeFirst, ht]
  · simp [unescapeFirst, hn]
  · simp [unescapeFirst, hf]
  · simp [unescapeFirst, hr]
  · simp [unescapeFirst, hquote]
  · simp [unescapeFirst, hslash]
  · simp only [List.cons_append, List.nil_append, unescapeFirst]
    rw [hexValue_hexDigit _ (by omega), hexValue_hexDigit _ (by omega), Nat.div_add_mod' , Char.ofNat_toNat]
  · simp [unescapeFirst, hslash]

/-- The end of a quoted string is where its text has it. -/
theorem flatMap_escapeChar_inj {cs cs' l l' : List Char}
    (h : cs.flatMap escapeChar ++ '"' :: l = cs'.flatMap escapeChar ++ '"' :: l') : cs = cs' ∧ l = l' := by
  have hquote : ∀ c l₁ l₂, escapeChar c ++ l₁ ≠ '"' :: l₂ := by
    intro c l₁ l₂
    unfold escapeChar
    split_ifs <;> simp_all
  induction cs generalizing cs' with
  | nil =>
    cases cs' with
    | nil => exact ⟨rfl, by simpa using h⟩
    | cons c' cs' => 
      rw [List.flatMap_cons, List.append_assoc] at h
      exact absurd h.symm (hquote c' _ _)
  | cons c cs ih =>
    cases cs' with
    | nil => 
      rw [List.flatMap_cons, List.append_assoc] at h
      exact absurd h (hquote c _ _)
    | cons c' cs' => 
      rw [List.flatMap_cons, List.flatMap_cons, List.append_assoc, List.append_assoc] at h
      have hread := congrArg unescapeFirst h
      rw [unescapeFirst_escapeChar, unescapeFirst_escapeChar, Option.some.injEq, Prod.mk.injEq] at hread
      obtain ⟨rfl, rfl⟩ := ih hread.2
      exact ⟨by rw [hread.1], rfl⟩

theorem quote_append_inj {s s' : String} {l l' : List Char} : quote s ++ l = quote s' ++ l' ↔ s = s' ∧ l = l' := by
  constructor
  · intro h
    simp only [quote, List.cons_append, List.append_assoc, List.cons.injEq, true_and] at h
    obtain ⟨hs, hl⟩ := flatMap_escapeChar_inj h
    exact ⟨String.toList_inj.1 hs, hl⟩
  · rintro ⟨rfl, rfl⟩
    rfl

theorem toList_toString (n : ℤ) : (toString n).toList = match n with
    | .ofNat m => Nat.toDigits 10 m
    | .negSucc m => '-' :: Nat.toDigits 10 (m + 1) := by
  cases n with
  | ofNat m => exact Nat.toList_repr
  | negSucc m =>
    change ("-" ++ (m + 1).repr).toList = _
    rw [String.toList_append, Nat.toList_repr]
    rfl

/-- A number is written with digits and a minus sign. -/
theorem isDigit_of_mem_toString {n : ℤ} {c : Char} (hc : c ∈ (toString n).toList) : c.isDigit ∨ c = '-' := by
  have hdigit : ∀ {m : ℕ}, c ∈ Nat.toDigits 10 m → c.isDigit :=
    fun hm => Nat.isDigit_of_mem_toDigits (by decide) (by decide) hm
  rw [toList_toString] at hc
  cases n with
  | ofNat m => exact .inl (hdigit hc)
  | negSucc m => exact (List.mem_cons.1 hc).symm.imp_left hdigit

theorem toString_inj {n n' : ℤ} (h : (toString n).toList = (toString n').toList) : n = n' := by
  have hdigits : ∀ {m m' : ℕ}, Nat.toDigits 10 m = Nat.toDigits 10 m' → m = m' := by
    intro m m' heq
    have := congrArg (fun l => Nat.ofDigitChars 10 l 0) heq
    simpa using this
  have hminus : ∀ {m : ℕ} {l : List Char}, Nat.toDigits 10 m ≠ '-' :: l := by
    intro m l heq
    have := Nat.isDigit_of_mem_toDigits (b := 10) (n := m) (c := '-') (by decide) (by decide) (by simp [heq])
    exact absurd this (by decide)
  rw [toList_toString, toList_toString] at h
  cases n with
  | ofNat m =>
    cases n' with
    | ofNat m' => rw [hdigits h]
    | negSucc m' => exact absurd h hminus
  | negSucc m =>
    cases n' with
    | ofNat m' => exact absurd h.symm hminus
    | negSucc m' => rw [Nat.succ_inj.1 (hdigits (List.cons.inj h).2)]

theorem toString_append_inj {n n' : ℤ} {c : Char} {l l' : List Char} (hc : c.isDigit = false ∧ c ≠ '-') :
    (toString n).toList ++ c :: l = (toString n').toList ++ c :: l' ↔ n = n' ∧ l = l' := by
  have hne : ∀ n : ℤ, ∀ a ∈ (toString n).toList, decide (a ≠ c) = true := by
    intro n a ha
    rw [decide_eq_true_eq]
    rintro rfl
    rcases isDigit_of_mem_toString ha with ha | ha
    · simp [hc.1] at ha
    · exact hc.2 ha
  constructor
  · intro h
    have htext : (toString n).toList = (toString n').toList := by
      have htake := congrArg (List.takeWhile (· ≠ c)) h
      rw [List.takeWhile_append_of_pos (hne n), List.takeWhile_append_of_pos (hne n')] at htake
      simpa using htake
    rw [htext, List.append_cancel_left_eq, List.cons.injEq] at h
    exact ⟨toString_inj htext, h.2⟩
  · rintro ⟨rfl, rfl⟩
    rfl

end Json

/-- The serializer and the parser of the JSON library. -/
structure JsonLib where
  dump : Json → Bytes
  parse : Bytes → Except Exn Json

/-- The serializer with a parser that knows the texts of finitely many values. -/
def JsonLib.ofList (known : List Json) : JsonLib where
  dump := Json.dump
  parse l := match known.find? fun js => js.dump = l with
    | some js => .ok js
    | none => .error .parseError

/-- What the library promises for an object: `dump` writes no raw CR or LF, and `parse` undoes it. -/
structure JsonLib.Faithful (lib : JsonLib) (js : Json) : Prop where
  noCR : CR ∉ lib.dump js
  noLF : LF ∉ lib.dump js
  parse_dump : lib.parse (lib.dump js) = .ok js

end Chatroom
