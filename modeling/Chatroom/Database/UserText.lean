import Mathlib.Algebra.GroupWithZero.Nat
import Mathlib.Data.List.TakeWhile
import Chatroom.Database.Lexer
import Chatroom.Database.Models

/-!
# Names, passwords and file names in statements

Four functions put what a client sends between quotes with `sprintf`, into a buffer of 1024 bytes and without the
escaping that chat messages get. `user_text_iff` says for which strings the statement fits and is read as it is meant.
-/

namespace Chatroom.Database

open Lib History Service

/-! ## Statements as they are meant -/

/-- A part of a statement: code, a number, or a literal with its value. -/
inductive Part where
  | code (text : String)
  | number (n : ℤ)
  | value (text : String)

def Part.pieces : Part → List Piece
  | .code text => text.toList.map .code
  | .number n => (toString n).toList.map .code
  | .value text => [.literal text.toList]

/-- How a statement is meant to be read. -/
def pieces (parts : List Part) : List Piece := parts.flatMap Part.pieces

/-- A part as `sprintf` prints it. -/
def Part.text : Part → List Char
  | .code text => text.toList
  | .number n => (toString n).toList
  | .value text => '\'' :: ((cStr text).toList ++ ['\''])

/-- What stands for the part in the format. -/
def Part.format : Part → String
  | .code text => text
  | .number _ => "%d"
  | .value _ => "'%s'"

def Part.args : Part → List Arg
  | .code _ => []
  | .number n => [.int n]
  | .value text => [.str text]

/-- The parts of code have no quotes and no conversions, and there is one after every value that is not the last
part. -/
def Spaced : List Part → Prop
  | [] => True
  | .code text :: parts => ('\'' ∉ text.toList ∧ '%' ∉ text.toList) ∧ Spaced parts
  | .number _ :: parts => Spaced parts
  | .value _ :: parts => (∀ p ∈ parts.head?, ∃ text, p = .code text ∧ text ≠ "") ∧ Spaced parts

/-- The statement fits into `sql[1024]` and is read as it is meant. -/
structure Stays (sql : Stmt) (parts : List Part) : Prop where
  size : sql.text.utf8ByteSize ≤ 1023
  lex : lex sql.text.toList = some (pieces parts)

instance : DecidablePred Verbatim := fun v => decidable_of_iff _ (readSQLString_self_iff v)

/-- The string is passed whole, and reads as itself between quotes. -/
def InLiteral (s : String) : Prop := '\x00' ∉ s.toList ∧ Verbatim s.toList

instance : DecidablePred InLiteral := fun s => inferInstanceAs (Decidable ('\x00' ∉ s.toList ∧ Verbatim s.toList))

section Parts

variable {parts : List Part}

theorem pieces_cons (p : Part) (parts : List Part) : pieces (p :: parts) = p.pieces ++ pieces parts := rfl

theorem cStr_eq {s : String} (h : '\x00' ∉ s.toList) : cStr s = s := by
  have hall : ∀ c ∈ s.toList, decide (c ≠ '\x00') = true := fun c hc => by
    rw [decide_eq_true_eq]
    rintro rfl
    exact h hc
  rw [cStr, List.takeWhile_eq_self_iff.2 hall, String.ofList_toList]

theorem length_cStr_lt {s : String} (h : '\x00' ∈ s.toList) : (cStr s).toList.length < s.toList.length := by
  rw [cStr, String.toList_ofList]
  refine lt_of_le_of_ne (List.takeWhile_sublist _).length_le fun heq => ?_
  have hall := List.takeWhile_eq_self_iff.1 ((List.takeWhile_sublist _).eq_of_length heq) _ h
  simp at hall

theorem length_cStr_le (s : String) : (cStr s).toList.length ≤ s.toList.length := by
  rw [cStr, String.toList_ofList]
  exact (List.takeWhile_sublist _).length_le

theorem print_append (ps ps' : List Piece) : print (ps ++ ps') = print ps ++ print ps' := List.flatMap_append

theorem print_codes (text : List Char) : print (text.map .code) = text := by
  induction text with
  | nil => rfl
  | cons c text ih => rw [List.map_cons, print_cons, ih, Piece.text, List.singleton_append]

theorem separated_codes {text : List Char} (htext : '\'' ∉ text) {ps : List Piece} (hps : Separated ps) :
    Separated (text.map .code ++ ps) := by
  induction text with
  | nil => exact hps
  | cons c text ih =>
    rw [List.mem_cons, not_or] at htext
    exact ⟨Ne.symm htext.1, ih htext.2⟩

theorem separated_pieces (h : Spaced parts) : Separated (pieces parts) := by
  induction parts with
  | nil => trivial
  | cons p parts ih =>
    cases p with
    | code text => exact separated_codes h.1.1 (ih h.2)
    | number n => exact separated_codes (fun hquote => (plain_toString n _ hquote).1 rfl) (ih h)
    | value text =>
      refine ⟨fun p hp => ?_, ih h.2⟩
      rcases parts with _ | ⟨q, parts⟩
      · cases hp
      · obtain ⟨text, rfl, hne⟩ := h.1 q rfl
        obtain ⟨c, cs, hcs⟩ := List.exists_cons_of_ne_nil (fun hnil => hne (String.toList_eq_nil_iff.1 hnil))
        change p ∈ (pieces (.code text :: parts)).head? at hp
        rw [pieces_cons, Part.pieces, hcs] at hp
        cases hp
        exact id

theorem print_pieces (h : ∀ s, .value s ∈ parts → '\x00' ∉ s.toList) :
    print (pieces parts) = parts.flatMap Part.text := by
  induction parts with
  | nil => rfl
  | cons p parts ih =>
    have hrest := ih fun s hs => h s (List.mem_cons_of_mem _ hs)
    rw [pieces_cons, print_append, hrest, List.flatMap_cons]
    cases p with
    | code text => rw [Part.pieces, print_codes, Part.text]
    | number n => rw [Part.pieces, print_codes, Part.text]
    | value text =>
      rw [Part.pieces, Part.text, cStr_eq (h text (by simp))]
      simp [print, Piece.text]

theorem length_text_le (p : Part) : p.text.length ≤ (print p.pieces).length := by
  cases p with
  | code text => rw [Part.pieces, print_codes, Part.text]
  | number n => rw [Part.pieces, print_codes, Part.text]
  | value text =>
    have := length_cStr_le text
    simp [Part.pieces, Part.text, print, Piece.text] at this ⊢
    omega

/-- What is printed is shorter than what is meant if a value is cut. -/
theorem length_text_lt {s : String} (hs : .value s ∈ parts) (hnul : '\x00' ∈ s.toList) :
    (parts.flatMap Part.text).length < (print (pieces parts)).length := by
  induction parts with
  | nil => cases hs
  | cons p parts ih =>
    have hle : ∀ parts : List Part, (parts.flatMap Part.text).length ≤ (print (pieces parts)).length := by
      intro parts
      induction parts with
      | nil => exact le_rfl
      | cons p parts ih =>
        rw [List.flatMap_cons, pieces_cons, print_append, List.length_append, List.length_append]
        exact Nat.add_le_add (length_text_le p) ih
    rw [List.flatMap_cons, pieces_cons, print_append, List.length_append, List.length_append]
    rcases List.mem_cons.1 hs with rfl | hs
    · refine Nat.add_lt_add_of_lt_of_le ?_ (hle parts)
      have := length_cStr_lt hnul
      simp [Part.pieces, Part.text, print, Piece.text] at this ⊢
      omega
    · exact Nat.add_lt_add_of_le_of_lt (length_text_le p) (ih hs)

/-- **A statement is read as it is meant if its values are passed whole and read as themselves.** -/
theorem lex_text_iff (hspaced : Spaced parts) :
    lex (parts.flatMap Part.text) = some (pieces parts) ↔ ∀ s, .value s ∈ parts → InLiteral s := by
  have hmem : ∀ v, .literal v ∈ pieces parts ↔ ∃ s : String, .value s ∈ parts ∧ v = s.toList := by
    intro v
    rw [pieces, List.mem_flatMap]
    constructor
    · rintro ⟨_ | _ | s, hp, hv⟩
      · simp [Part.pieces] at hv
      · simp [Part.pieces] at hv
      · exact ⟨s, hp, by simpa [Part.pieces] using hv⟩
    · rintro ⟨s, hs, rfl⟩
      exact ⟨.value s, hs, by simp [Part.pieces]⟩
  by_cases hnul : ∀ s, .value s ∈ parts → '\x00' ∉ s.toList
  · rw [← print_pieces hnul, lex_print_iff (separated_pieces hspaced)]
    constructor
    · intro h s hs
      exact ⟨hnul s hs, (readSQLString_self_iff _).1 (h _ ((hmem _).2 ⟨s, hs, rfl⟩))⟩
    · intro h v hv
      obtain ⟨s, hs, rfl⟩ := (hmem v).1 hv
      exact (readSQLString_self_iff _).2 (h s hs).2
  · push Not at hnul
    obtain ⟨s, hs, hnul⟩ := hnul
    refine iff_of_false (fun hlex => ?_) fun h => (h s hs).1 hnul
    exact absurd (length_print_le hlex) (Nat.not_le.2 (length_text_lt hs hnul))

def Part.size : Part → ℕ
  | .code text => text.utf8ByteSize
  | .number n => (toString n).utf8ByteSize
  | .value text => text.utf8ByteSize + 2

theorem size_text (h : ∀ s, .value s ∈ parts → '\x00' ∉ s.toList) :
    (String.ofList (parts.flatMap Part.text)).utf8ByteSize = (parts.map Part.size).sum := by
  induction parts with
  | nil => rfl
  | cons p parts ih =>
    have hrest := ih fun s hs => h s (List.mem_cons_of_mem _ hs)
    rw [List.flatMap_cons, String.ofList_append, String.utf8ByteSize_append, hrest, List.map_cons, List.sum_cons]
    cases p with
    | code text => rw [Part.text, Part.size, String.ofList_toList]
    | number n => rw [Part.text, Part.size, String.ofList_toList]
    | value text =>
      have htext : String.ofList (Part.value text).text = "'" ++ text ++ "'" := by
        rw [← String.toList_inj, String.toList_ofList]
        simp [Part.text, cStr_eq (h text (by simp))]
      have hquote : "'".utf8ByteSize = 1 := rfl
      rw [htext, String.utf8ByteSize_append, String.utf8ByteSize_append, Part.size, hquote]
      omega

/-! ## `sprintf` -/

theorem sprintf_code {code : List Char} (hcode : '%' ∉ code) (format : List Char) (args : List Arg) :
    sprintf (code ++ format) args = code ++ sprintf format args := by
  induction code with
  | nil => rfl
  | cons c code ih =>
    rw [List.mem_cons, not_or] at hcode
    rw [List.cons_append, List.cons_append, ← ih hcode.2, sprintf]
    · exact fun _ _ _ _ hc => absurd hc.symm hcode.1
    · exact fun _ _ _ _ hc => absurd hc.symm hcode.1

/-- **What `sprintf` prints for the format of the parts** is their text. -/
theorem sprintf_format (hspaced : Spaced parts) :
    sprintf (String.join (parts.map Part.format)).toList (parts.flatMap Part.args) = parts.flatMap Part.text := by
  induction parts with
  | nil => rfl
  | cons p parts ih =>
    rw [List.map_cons, String.join_cons, String.toList_append, List.flatMap_cons, List.flatMap_cons]
    cases p with
    | code text =>
      rw [← ih hspaced.2]
      exact sprintf_code hspaced.1.2 _ _
    | number n =>
      rw [← ih hspaced]
      simp [Part.format, Part.args, Part.text, sprintf, Arg.text]
    | value text =>
      rw [← ih hspaced.2]
      simp [Part.format, Part.args, Part.text, sprintf, Arg.text]

/-- When a statement with the format of the parts stays what it is meant to be. -/
theorem stays_iff {format : String} {args : List Arg} (hspaced : Spaced parts)
    (hformat : format = String.join (parts.map Part.format)) (hargs : args = parts.flatMap Part.args) :
    Stays (.formatted format args) parts ↔
      (∀ s, .value s ∈ parts → InLiteral s) ∧ (parts.map Part.size).sum ≤ 1023 := by
  have htext : (Stmt.formatted format args).text = String.ofList (parts.flatMap Part.text) := by
    show String.ofList (sprintf format.toList args) = _
    rw [hformat, hargs, sprintf_format hspaced]
  constructor
  · rintro ⟨hsize, hlex⟩
    rw [htext, String.toList_ofList] at hlex
    have hvalues := (lex_text_iff hspaced).1 hlex
    refine ⟨hvalues, ?_⟩
    rwa [htext, size_text fun s hs => (hvalues s hs).1] at hsize
  · rintro ⟨hvalues, hsize⟩
    refine ⟨?_, ?_⟩
    · rwa [htext, size_text fun s hs => (hvalues s hs).1]
    · rw [htext, String.toList_ofList]
      exact (lex_text_iff hspaced).2 hvalues

end Parts

/-! ## The four statements -/

def insertParts (name password : String) : List Part :=
  [.code "insert into user(name, password, state) values(", .value name, .code ", ", .value password, .code ", ",
    .value "offline", .code ")"]

def queryByNameParts (name : String) : List Part := [.code "select * from user where name = ", .value name]

def createGroupParts (name : String) : List Part :=
  [.code "insert into AllGroup(groupname) values(", .value name, .code ")"]

def insertFileParts (sender_id receiver_id : ℤ) (file_name : String) : List Part :=
  [.code "INSERT INTO file_transfers(`filename`, `senderid`, `receiverid`)  VALUES(", .value file_name,
    .code ", ", .number sender_id, .code ", ", .number receiver_id,
    .code (")  ON DUPLICATE KEY UPDATE      senderid = VALUES(senderid),      " ++
      "receiverid = VALUES(receiverid),      created_at = NOW();")]

theorem spaced_value {text code : String} (hne : code ≠ "") {parts : List Part} (h : Spaced (.code code :: parts)) :
    Spaced (.value text :: .code code :: parts) := by
  refine ⟨?_, h⟩
  rintro p ⟨⟩
  exact ⟨code, rfl, hne⟩

theorem spaced_last (text : String) : Spaced [.value text] := ⟨nofun, trivial⟩

theorem spaced_insertParts (name password : String) : Spaced (insertParts name password) :=
  ⟨by simp, spaced_value (by decide) ⟨by decide, spaced_value (by decide) ⟨by decide, spaced_value (by decide)
    ⟨by decide, trivial⟩⟩⟩⟩

theorem spaced_queryByNameParts (name : String) : Spaced (queryByNameParts name) :=
  ⟨by simp, spaced_last name⟩

theorem spaced_createGroupParts (name : String) : Spaced (createGroupParts name) :=
  ⟨by simp, spaced_value (by decide) ⟨by decide, trivial⟩⟩

theorem spaced_insertFileParts (sender_id receiver_id : ℤ) (file_name : String) :
    Spaced (insertFileParts sender_id receiver_id file_name) := by
  refine ⟨by simp, spaced_value (by decide) ⟨by decide, by decide, ⟨?_, trivial⟩⟩⟩
  simp only [String.toList_append, List.mem_append, not_or]
  simp

theorem inLiteral_offline : InLiteral "offline" := ⟨by decide, (readSQLString_self_iff _).1 (by decide)⟩

/-- The statement of a command. -/
def Cmd.sql : Cmd → Option Stmt
  | .update _ sql => some sql
  | .query _ _ sql => some sql
  | _ => none

/-- Every statement that the function sends, whatever is answered. -/
def Sends {α : Type} (P : Stmt → Prop) (task : DbTask α) : Prop :=
  task.Safe (fun c => ∀ sql ∈ c.sql, P sql) (fun _ _ => True) fun _ => True

theorem sends_insert (P : Stmt → Prop) (user : User) : Sends P (UserModel.insert user) ↔
    P (.formatted "insert into user(name, password, state) values('%s', '%s', '%s')"
      [.str user.name, .str user.password, .str user.state]) := by
  simp [Sends, UserModel.insert, withConnection, perform, Cmd.sql]

theorem sends_queryByName (P : Stmt → Prop) (name : String) : Sends P (UserModel.queryByName name) ↔
    P (.formatted "select * from user where name = '%s'" [.str name]) := by
  simp [Sends, UserModel.queryByName, runQuery, withConnection, perform, Cmd.sql, Program.safe_ofExcept]

theorem sends_createGroup (P : Stmt → Prop) (group : Group) : Sends P (GroupModel.createGroup group) ↔
    P (.formatted "insert into AllGroup(groupname) values('%s')" [.str group.name]) := by
  simp [Sends, GroupModel.createGroup, perform, Cmd.sql]

theorem stays_insert (name password : String) :
    Sends (Stays · (insertParts name password)) (UserModel.insert { name, password }) ↔
      InLiteral name ∧ InLiteral password ∧ name.utf8ByteSize + password.utf8ByteSize ≤ 958 := by
  have hformat : "insert into user(name, password, state) values('%s', '%s', '%s')" =
      String.join ((insertParts name password).map Part.format) := by
    simp only [insertParts, List.map_cons, List.map_nil, Part.format]
    rfl
  have hvalues : (∀ s, .value s ∈ insertParts name password → InLiteral s) ↔ InLiteral name ∧ InLiteral password := by
    simp [insertParts, inLiteral_offline]
  have hsize : ((insertParts name password).map Part.size).sum =
      47 + (name.utf8ByteSize + 2 + (2 + (password.utf8ByteSize + 2 + (2 + (9 + (1 + 0)))))) := rfl
  rw [sends_insert, stays_iff (spaced_insertParts name password) hformat (by rfl), hvalues, hsize, and_assoc]
  refine and_congr_right' (and_congr_right' ?_)
  omega

theorem stays_queryByName (name : String) :
    Sends (Stays · (queryByNameParts name)) (UserModel.queryByName name) ↔
      InLiteral name ∧ name.utf8ByteSize ≤ 989 := by
  have hformat : "select * from user where name = '%s'" = String.join ((queryByNameParts name).map Part.format) := by
    simp only [queryByNameParts, List.map_cons, List.map_nil, Part.format]
    rfl
  have hvalues : (∀ s, .value s ∈ queryByNameParts name → InLiteral s) ↔ InLiteral name := by
    simp [queryByNameParts]
  have hsize : ((queryByNameParts name).map Part.size).sum = 32 + (name.utf8ByteSize + 2 + 0) := rfl
  rw [sends_queryByName, stays_iff (spaced_queryByNameParts name) hformat (by rfl), hvalues, hsize]
  refine and_congr_right' ?_
  omega

theorem stays_createGroup (name : String) :
    Sends (Stays · (createGroupParts name)) (GroupModel.createGroup { name }) ↔
      InLiteral name ∧ name.utf8ByteSize ≤ 981 := by
  have hformat : "insert into AllGroup(groupname) values('%s')" =
      String.join ((createGroupParts name).map Part.format) := by
    simp only [createGroupParts, List.map_cons, List.map_nil, Part.format]
    rfl
  have hvalues : (∀ s, .value s ∈ createGroupParts name → InLiteral s) ↔ InLiteral name := by
    simp [createGroupParts]
  have hsize : ((createGroupParts name).map Part.size).sum = 39 + (name.utf8ByteSize + 2 + (1 + 0)) := rfl
  rw [sends_createGroup, stays_iff (spaced_createGroupParts name) hformat (by rfl), hvalues, hsize]
  refine and_congr_right' ?_
  omega

theorem stays_insertFile (sender_id receiver_id : ℤ) (name : String) :
    (∀ sql ∈ FileModel.insertFile sender_id receiver_id name true,
        Stays sql (insertFileParts sender_id receiver_id name)) ↔
      InLiteral name ∧
        name.utf8ByteSize + (toString sender_id).utf8ByteSize + (toString receiver_id).utf8ByteSize ≤ 821 := by
  have hformat : "INSERT INTO file_transfers(`filename`, `senderid`, `receiverid`)  VALUES('%s', %d, %d)  " ++
      "ON DUPLICATE KEY UPDATE      senderid = VALUES(senderid),      receiverid = VALUES(receiverid),      " ++
      "created_at = NOW();" = String.join ((insertFileParts sender_id receiver_id name).map Part.format) := by
    simp only [insertFileParts, List.map_cons, List.map_nil, Part.format]
    simp [String.join]
  have hvalues : (∀ s, .value s ∈ insertFileParts sender_id receiver_id name → InLiteral s) ↔ InLiteral name := by
    simp [insertFileParts]
  have hfirst : "INSERT INTO file_transfers(`filename`, `senderid`, `receiverid`)  VALUES(".utf8ByteSize = 73 := rfl
  have hcomma : ", ".utf8ByteSize = 2 := rfl
  have hlast : (")  ON DUPLICATE KEY UPDATE      senderid = VALUES(senderid),      " ++
      "receiverid = VALUES(receiverid),      created_at = NOW();").utf8ByteSize = 123 := rfl
  have hsize : ((insertFileParts sender_id receiver_id name).map Part.size).sum =
      73 + (name.utf8ByteSize + 2 + (2 + ((toString sender_id).utf8ByteSize + (2 + ((toString receiver_id).utf8ByteSize +
        (123 + 0)))))) := by
    simp only [insertFileParts, List.map_cons, List.map_nil, List.sum_cons, List.sum_nil, Part.size, hfirst, hcomma,
      hlast]
  rw [FileModel.insertFile, if_pos rfl, List.forall_mem_singleton,
    stays_iff (spaced_insertFileParts sender_id receiver_id name) hformat (by rfl), hvalues, hsize]
  refine and_congr_right' ?_
  omega

/-- **When what a client sends stays inside its literal and its buffer**: when it has no U+0000, no quotes, no
backslashes but before `%` and `_`, and few enough bytes. -/
theorem user_text_iff (name password : String) (sender_id receiver_id : ℤ) :
    (Sends (Stays · (insertParts name password)) (UserModel.insert { name, password }) ↔
      InLiteral name ∧ InLiteral password ∧ name.utf8ByteSize + password.utf8ByteSize ≤ 958) ∧
    (Sends (Stays · (queryByNameParts name)) (UserModel.queryByName name) ↔
      InLiteral name ∧ name.utf8ByteSize ≤ 989) ∧
    (Sends (Stays · (createGroupParts name)) (GroupModel.createGroup { name }) ↔
      InLiteral name ∧ name.utf8ByteSize ≤ 981) ∧
    ((∀ sql ∈ FileModel.insertFile sender_id receiver_id name true,
        Stays sql (insertFileParts sender_id receiver_id name)) ↔
      InLiteral name ∧
        name.utf8ByteSize + (toString sender_id).utf8ByteSize + (toString receiver_id).utf8ByteSize ≤ 821) := by
  exact ⟨stays_insert name password, stays_queryByName name, stays_createGroup name,
    stays_insertFile sender_id receiver_id name⟩

/-- A name that ends its literal. -/
theorem quote_leaves_literal :
    ¬ Sends (Stays · (queryByNameParts "x' or '1'='1")) (UserModel.queryByName "x' or '1'='1") := by
  rw [stays_queryByName]
  rintro ⟨⟨-, hverbatim⟩, -⟩
  exact absurd ((readSQLString_self_iff _).2 hverbatim) (by decide)

end Chatroom.Database
