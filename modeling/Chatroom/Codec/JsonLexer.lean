import Mathlib.Data.List.Basic
import Mathlib.Data.List.TakeWhile
import Mathlib.Tactic.IntervalCases
import Chatroom.Json
import Chatroom.Lib.Loop

/-!
# The lexer of `json.hpp`

`lexer::scan` on the bytes of a text: white space, literals, numbers with their state machine, strings with their
escapes and the check of their UTF-8. `get` takes the first byte; a byte that was read too far (`unget`) is still
in the rest. The positions and the texts of the errors are left out, and `strtod` is a parameter.

What the serializer writes is read back token by token, and a string that is accepted is valid UTF-8.
-/

namespace Chatroom.Json

open Lib

/-- `strtod` on the text of a number, `none` for an infinite result. -/
abbrev Strtod := Bytes → Option Double

/-- `token_type`, with the values that the lexer keeps for it. -/
inductive Token where
  | literalTrue | literalFalse | literalNull
  | valueString (buffer : Bytes)
  | valueUnsigned (n : ℕ)
  | valueInteger (n : ℤ)
  | valueFloat (x : Option Double)
  | beginArray | beginObject | endArray | endObject | nameSeparator | valueSeparator
  | parseError | endOfInput
  deriving DecidableEq

/-! ## Strings -/

/-- A hexadecimal digit of `get_codepoint`. -/
def hexOf (b : Byte) : Option ℕ :=
  let current := b.toNat
  if 0x30 ≤ current ∧ current ≤ 0x39 then some (current - 0x30)
  else if 0x41 ≤ current ∧ current ≤ 0x46 then some (current - 0x37)
  else if 0x61 ≤ current ∧ current ≤ 0x66 then some (current - 0x57)
  else none

def getCodepoint : Bytes → Option (ℕ × Bytes)
  | b₁ :: b₂ :: b₃ :: b₄ :: input => do
    let d₁ ← hexOf b₁
    let d₂ ← hexOf b₂
    let d₃ ← hexOf b₃
    let d₄ ← hexOf b₄
    return (d₁ <<< 12 + d₂ <<< 8 + d₃ <<< 4 + d₄, input)
  | _ => none

/-- The bytes of a code point. -/
def codepointBytes (codepoint : ℕ) : Bytes :=
  if codepoint < 0x80 then [.ofNat codepoint]
  else if codepoint ≤ 0x7FF then
    [.ofNat (0xC0 ||| codepoint >>> 6), .ofNat (0x80 ||| codepoint &&& 0x3F)]
  else if codepoint ≤ 0xFFFF then
    [.ofNat (0xE0 ||| codepoint >>> 12), .ofNat (0x80 ||| codepoint >>> 6 &&& 0x3F),
      .ofNat (0x80 ||| codepoint &&& 0x3F)]
  else
    [.ofNat (0xF0 ||| codepoint >>> 18), .ofNat (0x80 ||| codepoint >>> 12 &&& 0x3F),
      .ofNat (0x80 ||| codepoint >>> 6 &&& 0x3F), .ofNat (0x80 ||| codepoint &&& 0x3F)]

/-- `\u` and four digits, or two such for a surrogate pair: the code point. -/
def scanUnicode (input : Bytes) : Option (ℕ × Bytes) := do
  let (codepoint₁, input) ← getCodepoint input
  if 0xD800 ≤ codepoint₁ ∧ codepoint₁ ≤ 0xDBFF then
    match input with
    | 0x5C :: 0x75 :: input =>
      let (codepoint₂, input) ← getCodepoint input
      if 0xDC00 ≤ codepoint₂ ∧ codepoint₂ ≤ 0xDFFF then
        return (codepoint₁ <<< 10 + codepoint₂ - 0x35FDC00, input)
      else none
    | _ => none
  else if 0xDC00 ≤ codepoint₁ ∧ codepoint₁ ≤ 0xDFFF then none
  else return (codepoint₁, input)

/-- What is added for the byte after a backslash, other than `u`. -/
def escaped (b : Byte) : Option Byte :=
  if b = 0x22 then some 0x22
  else if b = 0x5C then some 0x5C
  else if b = 0x2F then some 0x2F
  else if b = 0x62 then some 0x08
  else if b = 0x66 then some 0x0C
  else if b = 0x6E then some 0x0A
  else if b = 0x72 then some 0x0D
  else if b = 0x74 then some 0x09
  else none

/-- The ranges of the bytes that have to follow `current`; `none` for a control character and for a byte that
starts no character. -/
def byteRanges (current : ℕ) : Option (List (ℕ × ℕ)) :=
  if current ≤ 0x1F then none
  else if current ≤ 0x7F then some []
  else if 0xC2 ≤ current ∧ current ≤ 0xDF then some [(0x80, 0xBF)]
  else if current = 0xE0 then some [(0xA0, 0xBF), (0x80, 0xBF)]
  else if (0xE1 ≤ current ∧ current ≤ 0xEC) ∨ (0xEE ≤ current ∧ current ≤ 0xEF) then
    some [(0x80, 0xBF), (0x80, 0xBF)]
  else if current = 0xED then some [(0x80, 0x9F), (0x80, 0xBF)]
  else if current = 0xF0 then some [(0x90, 0xBF), (0x80, 0xBF), (0x80, 0xBF)]
  else if 0xF1 ≤ current ∧ current ≤ 0xF3 then some [(0x80, 0xBF), (0x80, 0xBF), (0x80, 0xBF)]
  else if current = 0xF4 then some [(0x80, 0x8F), (0x80, 0xBF), (0x80, 0xBF)]
  else none

def nextByteInRange : List (ℕ × ℕ) → Bytes → Option (Bytes × Bytes)
  | [], input => some ([], input)
  | (low, high) :: ranges, b :: input =>
    if low ≤ b.toNat ∧ b.toNat ≤ high then
      (nextByteInRange ranges input).map fun (taken, input) => (b :: taken, input)
    else none
  | _ :: _, [] => none

/-- A round of the loop of `scan_string`. -/
inductive Round where
  | closed (input : Bytes)
  | added (bytes input : Bytes)
  | failed

def scanChar : Bytes → Round
  | [] => .failed
  | b :: input =>
    if b = 0x22 then .closed input
    else if b = 0x5C then
      match input with
      | [] => .failed
      | b :: input =>
        if b = 0x75 then
          match scanUnicode input with
          | some (codepoint, input) => .added (codepointBytes codepoint) input
          | none => .failed
        else
          match escaped b with
          | some c => .added [c] input
          | none => .failed
    else
      match byteRanges b.toNat with
      | some ranges =>
        match nextByteInRange ranges input with
        | some (taken, input) => .added (b :: taken) input
        | none => .failed
      | none => .failed

/-- The loop of `scan_string`, on `token_buffer` and the rest of the input. -/
def scanStringStep : Bytes × Bytes → (Bytes × Bytes) ⊕ (Token × Bytes)
  | (buffer, input) =>
    match scanChar input with
    | .closed input => .inr (.valueString buffer, input)
    | .added bytes input => .inl (buffer ++ bytes, input)
    | .failed => .inr (.parseError, input)

/-- A round takes a byte, so there are no more rounds than bytes. -/
def scanString (input : Bytes) : Token × Bytes :=
  (loop scanStringStep (input.length + 1) ([], input)).getD (.parseError, input)

/-! ## Numbers -/

inductive NumberType where
  | unsigned | integer | float

/-- The labels of `scan_number`. -/
inductive NumberState where
  | minus | zero | any1 | decimal1 | decimal2 | exponent | sign | any2

inductive NumberStep where
  | goto (s : NumberState)
  | done
  | error

def isDigit (b : Byte) : Bool := 0x30 ≤ b.toNat ∧ b.toNat ≤ 0x39

/-- `e` or `E` -/
def isExponent (b : Byte) : Bool := b = 0x65 ∨ b = 0x45

def NumberState.next (b : Byte) : NumberState → NumberStep
  | minus => if b = 0x30 then .goto zero else if isDigit b then .goto any1 else .error
  | zero => if b = 0x2E then .goto decimal1 else if isExponent b then .goto exponent else .done
  | any1 =>
    if isDigit b then .goto any1
    else if b = 0x2E then .goto decimal1
    else if isExponent b then .goto exponent
    else .done
  | decimal1 => if isDigit b then .goto decimal2 else .error
  | decimal2 => if isDigit b then .goto decimal2 else if isExponent b then .goto exponent else .done
  | exponent =>
    if b = 0x2B ∨ b = 0x2D then .goto sign
    else if isDigit b then .goto any2
    else .error
  | sign => if isDigit b then .goto any2 else .error
  | any2 => if isDigit b then .goto any2 else .done

/-- Whether the input may end here. -/
def NumberState.isDone : NumberState → Bool
  | zero | any1 | decimal2 | any2 => true
  | _ => false

/-- What reaching the label makes of `number_type`. -/
def NumberState.type (t : NumberType) : NumberState → NumberType
  | minus => .integer
  | decimal1 | exponent => .float
  | _ => t

def scanNumberFrom (t : NumberType) (s : NumberState) (buffer : Bytes) : Bytes → Option (NumberType × Bytes × Bytes)
  | [] => if s.isDone then some (t, buffer, []) else none
  | b :: input =>
    match s.next b with
    | .goto s' => scanNumberFrom (s'.type t) s' (buffer ++ [b]) input
    | .done => some (t, buffer, b :: input)
    | .error => none

/-- The value of decimal digits. -/
def digitsValue (l : Bytes) : ℕ := l.foldl (fun n b => 10 * n + (b.toNat - 0x30)) 0

/-- `strtoull` and `strtoll`, and `strtod` where they are out of range. -/
def convert (strtod : Strtod) : NumberType → Bytes → Token
  | .unsigned, buffer =>
    let x := digitsValue buffer
    if x < 2 ^ 64 then .valueUnsigned x else .valueFloat (strtod buffer)
  | .integer, buffer =>
    let x : ℤ := -digitsValue buffer.tail
    if -2 ^ 63 ≤ x then .valueInteger x else .valueFloat (strtod buffer)
  | .float, buffer => .valueFloat (strtod buffer)

def scanNumber (strtod : Strtod) (b : Byte) (input : Bytes) : Token × Bytes :=
  let s : NumberState := if b = 0x2D then .minus else if b = 0x30 then .zero else .any1
  match scanNumberFrom (s.type .unsigned) s [b] input with
  | some (t, buffer, input) => (convert strtod t buffer, input)
  | none => (.parseError, input)

/-! ## Tokens -/

/-- `scan_literal` after its first character. -/
def scanLiteral (literal : List Char) (t : Token) (input : Bytes) : Token × Bytes :=
  if utf8 literal <+: input then (t, input.drop literal.length) else (.parseError, input)

def isSpace (b : Byte) : Bool := b = 0x20 ∨ b = 0x09 ∨ b = 0x0A ∨ b = 0x0D

/-- The structural characters. -/
def structural (b : Byte) : Option Token :=
  if b = 0x5B then some .beginArray
  else if b = 0x5D then some .endArray
  else if b = 0x7B then some .beginObject
  else if b = 0x7D then some .endObject
  else if b = 0x3A then some .nameSeparator
  else if b = 0x2C then some .valueSeparator
  else none

/-- The literals by their first character. -/
def literal (b : Byte) : Option (List Char × Token) :=
  if b = 0x74 then some (['r', 'u', 'e'], .literalTrue)
  else if b = 0x66 then some (['a', 'l', 's', 'e'], .literalFalse)
  else if b = 0x6E then some (['u', 'l', 'l'], .literalNull)
  else none

def scan (strtod : Strtod) (input : Bytes) : Token × Bytes :=
  match input.dropWhile isSpace with
  | [] => (.endOfInput, [])
  | b :: input =>
    match structural b, literal b with
    | some t, _ => (t, input)
    | none, some (text, t) => scanLiteral text t input
    | none, none =>
      if b = 0x22 then scanString input
      else if b = 0x2D ∨ isDigit b then scanNumber strtod b input
      else if b = 0x00 then (.endOfInput, input)
      else (.parseError, input)

/-- `skip_bom`, before the first token. -/
def skipBom : Bytes → Option Bytes
  | 0xEF :: 0xBB :: 0xBF :: input => some input
  | 0xEF :: _ => none
  | input => some input

/-! ## Characters in UTF-8 -/

@[simp] theorem utf8_nil : utf8 [] = [] := rfl

theorem utf8_cons (c : Char) (cs : List Char) : utf8 (c :: cs) = String.utf8EncodeChar c ++ utf8 cs :=
  List.flatMap_cons

theorem utf8_append (cs cs' : List Char) : utf8 (cs ++ cs') = utf8 cs ++ utf8 cs' := List.flatMap_append

/-- A character of ASCII is one byte. -/
theorem utf8EncodeChar_of_lt {c : Char} (h : c.toNat < 0x80) : String.utf8EncodeChar c = [.ofNat c.toNat] := by
  have hle : c.val.toNat ≤ 0x7f := Nat.le_of_lt_succ h
  rw [String.utf8EncodeChar, if_pos hle]
  rfl

theorem or_eq_add : (∀ x < 2 ^ 6, 0x80 ||| x = x + 0x80) ∧ (∀ x < 2 ^ 5, 0xC0 ||| x = x + 0xC0) ∧
    (∀ x < 2 ^ 4, 0xE0 ||| x = x + 0xE0) ∧ ∀ x < 2 ^ 3, 0xF0 ||| x = x + 0xF0 := by decide

/-- The translation of code points is the encoding of characters. -/
theorem codepointBytes_toNat (c : Char) : codepointBytes c.toNat = String.utf8EncodeChar c := by
  have hlt : c.toNat < 0x110000 := by
    have hvalid := c.valid
    simp only [UInt32.isValidChar, Nat.isValidChar] at hvalid
    have : c.toNat = c.val.toNat := rfl
    omega
  have hval : c.val.toNat = c.toNat := rfl
  have hand : ∀ x, x &&& 0x3F = x % 64 := fun x => Nat.and_two_pow_sub_one_eq_mod x 6
  obtain ⟨h₁, h₂, h₃, h₄⟩ := or_eq_add
  unfold codepointBytes String.utf8EncodeChar
  simp only [hval, hand, Nat.shiftRight_eq_div_pow]
  by_cases ha : c.toNat < 0x80
  · rw [if_pos ha, if_pos (by omega)]
  rw [if_neg ha, if_neg (by omega : ¬c.toNat ≤ 0x7f)]
  by_cases hb : c.toNat ≤ 0x7FF
  · rw [if_pos hb, if_pos hb, h₂ _ (by omega), h₁ _ (by omega), Nat.mod_eq_of_lt (a := c.toNat / 64) (by omega)]
  rw [if_neg hb, if_neg hb]
  by_cases hc : c.toNat ≤ 0xFFFF
  · rw [if_pos hc, if_pos hc, h₃ _ (by omega), h₁ _ (by omega), h₁ _ (by omega),
      Nat.mod_eq_of_lt (a := c.toNat / 4096) (by omega)]
  · rw [if_neg hc, if_neg hc, h₄ _ (by omega), h₁ _ (by omega), h₁ _ (by omega), h₁ _ (by omega),
      Nat.mod_eq_of_lt (a := c.toNat / 262144) (by omega)]

theorem exists_char {n : ℕ} (h : n.isValidChar) : ∃ c : Char, c.toNat = n := by
  refine ⟨Char.ofNat n, ?_⟩
  rw [Char.ofNat, dif_pos h]
  rfl

theorem toNat_ofNat {x : ℕ} (h : x < 256) : (UInt8.ofNat x).toNat = x := by
  rw [UInt8.toNat_ofNat', Nat.mod_eq_of_lt h]

theorem nextByteInRange_cons {low high : ℕ} {ranges : List (ℕ × ℕ)} {b : Byte} {input taken rest : Bytes}
    (hb : low ≤ b.toNat ∧ b.toNat ≤ high) (h : nextByteInRange ranges input = some (taken, rest)) :
    nextByteInRange ((low, high) :: ranges) (b :: input) = some (b :: taken, rest) := by
  rw [nextByteInRange, if_pos hb, h]
  rfl

theorem scanChar_added {ranges : List (ℕ × ℕ)} {b : Byte} {input taken rest : Bytes}
    (hb : b.toNat ≠ 0x22 ∧ b.toNat ≠ 0x5C) (hranges : byteRanges b.toNat = some ranges)
    (h : nextByteInRange ranges input = some (taken, rest)) :
    scanChar (b :: input) = .added (b :: taken) rest := by
  have hquote : b ≠ 0x22 := by
    rintro rfl
    exact hb.1 rfl
  have hslash : b ≠ 0x5C := by
    rintro rfl
    exact hb.2 rfl
  simp only [scanChar, if_neg hquote, if_neg hslash, hranges, h]

theorem byteRanges_two : ∀ x < 32, 2 ≤ x → byteRanges (x + 0xC0) = some [(0x80, 0xBF)] := by decide

theorem byteRanges_three : ∀ x < 16, byteRanges (x + 0xE0) =
    some [(if x = 0 then 0xA0 else 0x80, if x = 13 then 0x9F else 0xBF), (0x80, 0xBF)] := by decide

theorem byteRanges_four : ∀ x < 5, byteRanges (x + 0xF0) =
    some [(if x = 0 then 0x90 else 0x80, if x = 4 then 0x8F else 0xBF), (0x80, 0xBF), (0x80, 0xBF)] := by decide

/-- A character that is not escaped is taken over, whatever its length. -/
theorem scanChar_utf8EncodeChar {c : Char} (hctrl : 0x1F < c.toNat) (hquote : c.toNat ≠ 0x22)
    (hslash : c.toNat ≠ 0x5C) (input : Bytes) :
    scanChar (String.utf8EncodeChar c ++ input) = .added (String.utf8EncodeChar c) input := by
  have hvalid := c.valid
  simp only [UInt32.isValidChar, Nat.isValidChar] at hvalid
  have hval : c.val.toNat = c.toNat := rfl
  rw [hval] at hvalid
  have htail : ∀ x, (UInt8.ofNat (x % 64 + 0x80)).toNat = x % 64 + 0x80 := fun x => toNat_ofNat (by omega)
  unfold String.utf8EncodeChar
  simp only [hval]
  split_ifs with ha hb hc
  · have hhead : (UInt8.ofNat c.toNat).toNat = c.toNat := toNat_ofNat (by omega)
    refine scanChar_added ⟨by omega, by omega⟩ (?_ : _ = some []) rfl
    rw [hhead, byteRanges, if_neg (by omega), if_pos ha]
  · have hhead : (UInt8.ofNat (c.toNat / 64 % 32 + 0xC0)).toNat = c.toNat / 64 % 32 + 0xC0 := toNat_ofNat (by omega)
    have hlast := htail c.toNat
    have hranges := byteRanges_two (c.toNat / 64 % 32) (by omega) (by omega)
    rw [← hhead] at hranges
    exact scanChar_added ⟨by omega, by omega⟩ hranges (nextByteInRange_cons (by omega) rfl)
  · have hhead : (UInt8.ofNat (c.toNat / 4096 % 16 + 0xE0)).toNat = c.toNat / 4096 % 16 + 0xE0 :=
      toNat_ofNat (by omega)
    have hsecond := htail (c.toNat / 64)
    have hlast := htail c.toNat
    have hranges := byteRanges_three (c.toNat / 4096 % 16) (by omega)
    rw [← hhead] at hranges
    refine scanChar_added ⟨by omega, by omega⟩ hranges
      (nextByteInRange_cons ?_ (nextByteInRange_cons (by omega) rfl))
    split_ifs <;> omega
  · have hhead : (UInt8.ofNat (c.toNat / 262144 % 8 + 0xF0)).toNat = c.toNat / 262144 % 8 + 0xF0 :=
      toNat_ofNat (by omega)
    have hsecond := htail (c.toNat / 4096)
    have hthird := htail (c.toNat / 64)
    have hlast := htail c.toNat
    have hranges := byteRanges_four (c.toNat / 262144 % 8) (by omega)
    rw [← hhead] at hranges
    refine scanChar_added ⟨by omega, by omega⟩ hranges
      (nextByteInRange_cons ?_ (nextByteInRange_cons (by omega) (nextByteInRange_cons (by omega) rfl)))
    split_ifs <;> omega

/-! ## What is accepted is valid UTF-8 -/

theorem mem_of_nextByteInRange {low high : ℕ} {ranges : List (ℕ × ℕ)} {input taken rest : Bytes}
    (h : nextByteInRange ((low, high) :: ranges) input = some (taken, rest)) :
    ∃ b taken' input', input = b :: input' ∧ taken = b :: taken' ∧ low ≤ b.toNat ∧ b.toNat ≤ high ∧
      nextByteInRange ranges input' = some (taken', rest) := by
  cases input with
  | nil => cases h
  | cons b input =>
    rw [nextByteInRange] at h
    split_ifs at h with hb
    obtain ⟨⟨taken', rest'⟩, hnext, heq⟩ := Option.map_eq_some_iff.1 h
    obtain ⟨rfl, rfl⟩ := Prod.mk.inj heq
    exact ⟨b, taken', input, rfl, rfl, hb.1, hb.2, hnext⟩

theorem eq_utf8EncodeChar {n : ℕ} {l : Bytes} (hn : n.isValidChar) (h : ∀ c : Char, c.toNat = n →
    (String.utf8EncodeChar c).map UInt8.toNat = l.map UInt8.toNat) : ∃ c, l = String.utf8EncodeChar c := by
  obtain ⟨c, hc⟩ := exists_char hn
  have hinj : Function.Injective UInt8.toNat := fun x y hxy => UInt8.toNat_inj.1 hxy
  exact ⟨c, (hinj.list_map (h c hc)).symm⟩

theorem exists_char_one {b : Byte} (h : b.toNat ≤ 0x7F) : ∃ c, [b] = String.utf8EncodeChar c := by
  have hvalid : b.toNat.isValidChar := .inl (h.trans_lt (by decide))
  refine eq_utf8EncodeChar hvalid fun c hc => ?_
  rw [utf8EncodeChar_of_lt (by omega), hc]
  simp

theorem exists_char_two {a b : Byte} (ha : 0xC2 ≤ a.toNat ∧ a.toNat ≤ 0xDF)
    (hb : 0x80 ≤ b.toNat ∧ b.toNat ≤ 0xBF) : ∃ c, [a, b] = String.utf8EncodeChar c := by
  refine eq_utf8EncodeChar (n := (a.toNat - 0xC0) * 64 + (b.toNat - 0x80)) (by simp [Nat.isValidChar]; omega) ?_
  intro c hc
  have hval : c.val.toNat = c.toNat := rfl
  rw [String.utf8EncodeChar, hval, if_neg (by omega), if_pos (by omega)]
  simp only [List.map_cons, List.map_nil, List.cons.injEq, and_true]
  exact ⟨(toNat_ofNat (by omega)).trans (by omega), (toNat_ofNat (by omega)).trans (by omega)⟩

theorem exists_char_three {a b c : Byte} (ha : 0xE0 ≤ a.toNat ∧ a.toNat ≤ 0xEF)
    (hb : 0x80 ≤ b.toNat ∧ b.toNat ≤ 0xBF) (hc : 0x80 ≤ c.toNat ∧ c.toNat ≤ 0xBF)
    (hlong : a.toNat = 0xE0 → 0xA0 ≤ b.toNat) (hsurrogate : a.toNat = 0xED → b.toNat ≤ 0x9F) :
    ∃ x, [a, b, c] = String.utf8EncodeChar x := by
  refine eq_utf8EncodeChar (n := (a.toNat - 0xE0) * 4096 + (b.toNat - 0x80) * 64 + (c.toNat - 0x80))
    (by simp [Nat.isValidChar]; omega) ?_
  intro x hx
  have hval : x.val.toNat = x.toNat := rfl
  rw [String.utf8EncodeChar, hval, if_neg (by omega), if_neg (by omega), if_pos (by omega)]
  simp only [List.map_cons, List.map_nil, List.cons.injEq, and_true]
  exact ⟨(toNat_ofNat (by omega)).trans (by omega), (toNat_ofNat (by omega)).trans (by omega),
    (toNat_ofNat (by omega)).trans (by omega)⟩

theorem exists_char_four {a b c d : Byte} (ha : 0xF0 ≤ a.toNat ∧ a.toNat ≤ 0xF4)
    (hb : 0x80 ≤ b.toNat ∧ b.toNat ≤ 0xBF) (hc : 0x80 ≤ c.toNat ∧ c.toNat ≤ 0xBF)
    (hd : 0x80 ≤ d.toNat ∧ d.toNat ≤ 0xBF) (hlong : a.toNat = 0xF0 → 0x90 ≤ b.toNat)
    (hlarge : a.toNat = 0xF4 → b.toNat ≤ 0x8F) : ∃ x, [a, b, c, d] = String.utf8EncodeChar x := by
  refine eq_utf8EncodeChar (n := (a.toNat - 0xF0) * 262144 + (b.toNat - 0x80) * 4096 + (c.toNat - 0x80) * 64 +
    (d.toNat - 0x80)) (by simp [Nat.isValidChar]; omega) ?_
  intro x hx
  have hval : x.val.toNat = x.toNat := rfl
  rw [String.utf8EncodeChar, hval, if_neg (by omega), if_neg (by omega), if_neg (by omega)]
  simp only [List.map_cons, List.map_nil, List.cons.injEq, and_true]
  exact ⟨(toNat_ofNat (by omega)).trans (by omega), (toNat_ofNat (by omega)).trans (by omega),
    (toNat_ofNat (by omega)).trans (by omega), (toNat_ofNat (by omega)).trans (by omega)⟩

/-- The ranges by the length of the character. -/
theorem byteRanges_cases {n : ℕ} {ranges : List (ℕ × ℕ)} (h : byteRanges n = some ranges) :
    (n ≤ 0x7F ∧ ranges = []) ∨ ((0xC2 ≤ n ∧ n ≤ 0xDF) ∧ ranges = [(0x80, 0xBF)]) ∨
    (∃ low high, (0xE0 ≤ n ∧ n ≤ 0xEF) ∧ 0x80 ≤ low ∧ high ≤ 0xBF ∧ (n = 0xE0 → low = 0xA0) ∧
      (n = 0xED → high = 0x9F) ∧ ranges = [(low, high), (0x80, 0xBF)]) ∨
    ∃ low high, (0xF0 ≤ n ∧ n ≤ 0xF4) ∧ 0x80 ≤ low ∧ high ≤ 0xBF ∧ (n = 0xF0 → low = 0x90) ∧
      (n = 0xF4 → high = 0x8F) ∧ ranges = [(low, high), (0x80, 0xBF), (0x80, 0xBF)] := by
  obtain ⟨-, h⟩ | ⟨-, h⟩ := ite_eq_iff.1 h
  · cases h
  obtain ⟨hone, h⟩ | ⟨-, h⟩ := ite_eq_iff.1 h
  · exact .inl ⟨hone, (Option.some.inj h).symm⟩
  obtain ⟨htwo, h⟩ | ⟨-, h⟩ := ite_eq_iff.1 h
  · exact .inr (.inl ⟨htwo, (Option.some.inj h).symm⟩)
  refine .inr (.inr ?_)
  obtain ⟨hE0, h⟩ | ⟨hE0, h⟩ := ite_eq_iff.1 h
  · exact .inl ⟨0xA0, 0xBF, by omega, by decide, le_refl _, fun _ => rfl, by omega, (Option.some.inj h).symm⟩
  obtain ⟨hthree, h⟩ | ⟨-, h⟩ := ite_eq_iff.1 h
  · exact .inl ⟨0x80, 0xBF, ⟨by omega, by omega⟩, le_refl _, le_refl _, fun h => absurd h hE0, by omega,
      (Option.some.inj h).symm⟩
  obtain ⟨hED, h⟩ | ⟨-, h⟩ := ite_eq_iff.1 h
  · exact .inl ⟨0x80, 0x9F, by omega, le_refl _, by decide, by omega, fun _ => rfl, (Option.some.inj h).symm⟩
  refine .inr ?_
  obtain ⟨hF0, h⟩ | ⟨hF0, h⟩ := ite_eq_iff.1 h
  · exact ⟨0x90, 0xBF, by omega, by decide, le_refl _, fun _ => rfl, by omega, (Option.some.inj h).symm⟩
  obtain ⟨hfour, h⟩ | ⟨-, h⟩ := ite_eq_iff.1 h
  · exact ⟨0x80, 0xBF, ⟨by omega, by omega⟩, le_refl _, le_refl _, fun h => absurd h hF0, by omega,
      (Option.some.inj h).symm⟩
  obtain ⟨hF4, h⟩ | ⟨-, h⟩ := ite_eq_iff.1 h
  · exact ⟨0x80, 0x8F, by omega, le_refl _, by decide, by omega, fun _ => rfl, (Option.some.inj h).symm⟩
  · cases h

/-- The ranges admit encodings of characters only. -/
theorem exists_char_of_ranges {ranges : List (ℕ × ℕ)} {b : Byte} {input taken rest : Bytes}
    (hranges : byteRanges b.toNat = some ranges) (h : nextByteInRange ranges input = some (taken, rest)) :
    (∃ c, b :: taken = String.utf8EncodeChar c) ∧ input = taken ++ rest := by
  obtain ⟨hone, rfl⟩ | ⟨htwo, rfl⟩ | ⟨low, high, hthree, hlow, hhigh, hlong, hsurrogate, rfl⟩ |
    ⟨low, high, hfour, hlow, hhigh, hlong, hlarge, rfl⟩ := byteRanges_cases hranges
  · obtain ⟨rfl, rfl⟩ := Prod.mk.inj (Option.some.inj h)
    exact ⟨exists_char_one hone, rfl⟩
  · obtain ⟨b₁, taken, input, rfl, rfl, hlow₁, hhigh₁, h⟩ := mem_of_nextByteInRange h
    obtain ⟨rfl, rfl⟩ := Prod.mk.inj (Option.some.inj h)
    exact ⟨exists_char_two htwo ⟨hlow₁, hhigh₁⟩, rfl⟩
  · obtain ⟨b₁, taken, input, rfl, rfl, hlow₁, hhigh₁, h⟩ := mem_of_nextByteInRange h
    obtain ⟨b₂, taken, input, rfl, rfl, hlow₂, hhigh₂, h⟩ := mem_of_nextByteInRange h
    obtain ⟨rfl, rfl⟩ := Prod.mk.inj (Option.some.inj h)
    exact ⟨exists_char_three hthree ⟨hlow.trans hlow₁, hhigh₁.trans hhigh⟩ ⟨hlow₂, hhigh₂⟩
      (fun he => (hlong he).ge.trans hlow₁) (fun he => hhigh₁.trans (hsurrogate he).le), rfl⟩
  · obtain ⟨b₁, taken, input, rfl, rfl, hlow₁, hhigh₁, h⟩ := mem_of_nextByteInRange h
    obtain ⟨b₂, taken, input, rfl, rfl, hlow₂, hhigh₂, h⟩ := mem_of_nextByteInRange h
    obtain ⟨b₃, taken, input, rfl, rfl, hlow₃, hhigh₃, h⟩ := mem_of_nextByteInRange h
    obtain ⟨rfl, rfl⟩ := Prod.mk.inj (Option.some.inj h)
    exact ⟨exists_char_four hfour ⟨hlow.trans hlow₁, hhigh₁.trans hhigh⟩ ⟨hlow₂, hhigh₂⟩ ⟨hlow₃, hhigh₃⟩
      (fun he => (hlong he).ge.trans hlow₁) (fun he => hhigh₁.trans (hlarge he).le), rfl⟩

theorem length_getCodepoint {input rest : Bytes} {n : ℕ} (h : getCodepoint input = some (n, rest)) :
    n < 0x10000 ∧ rest.length < input.length := by
  have hhex : ∀ b d, hexOf b = some d → d < 16 := by
    intro b d hd
    simp only [hexOf] at hd
    split_ifs at hd
    all_goals
      obtain rfl := Option.some.inj hd
      omega
  unfold getCodepoint at h
  split at h
  case h_1 b₁ b₂ b₃ b₄ input =>
    simp only [Option.bind_eq_bind, Option.bind_eq_some_iff, Option.pure_def, Option.some.injEq, Prod.mk.injEq] at h
    obtain ⟨d₁, h₁, d₂, h₂, d₃, h₃, d₄, h₄, rfl, rfl⟩ := h
    have := hhex b₁ d₁ h₁
    have := hhex b₂ d₂ h₂
    have := hhex b₃ d₃ h₃
    have := hhex b₄ d₄ h₄
    simp only [Nat.shiftLeft_eq, List.length_cons]
    omega
  case h_2 => cases h

/-- A code point that is accepted is a character's. -/
theorem isValidChar_scanUnicode {input rest : Bytes} {n : ℕ} (h : scanUnicode input = some (n, rest)) :
    n.isValidChar ∧ rest.length < input.length := by
  simp only [scanUnicode, Option.bind_eq_bind, Option.bind_eq_some_iff, Prod.exists] at h
  obtain ⟨codepoint₁, input₁, hfirst, h⟩ := h
  obtain ⟨hlt₁, hlength₁⟩ := length_getCodepoint hfirst
  split_ifs at h with hhigh hlow
  · split at h
    case h_1 input₂ =>
      simp only [Option.bind_eq_some_iff, Prod.exists] at h
      obtain ⟨codepoint₂, input₃, hsecond, h⟩ := h
      obtain ⟨hlt₂, hlength₂⟩ := length_getCodepoint hsecond
      split_ifs at h with hlow₂
      obtain ⟨rfl, rfl⟩ := Prod.mk.inj (Option.some.inj h)
      simp only [Nat.shiftLeft_eq, Nat.isValidChar, List.length_cons] at hlength₁ ⊢
      omega
    case h_2 => cases h
  · obtain ⟨rfl, rfl⟩ := Prod.mk.inj (Option.some.inj h)
    simp only [Nat.isValidChar]
    omega

theorem le_of_escaped {b c : Byte} (h : escaped b = some c) : c.toNat ≤ 0x7F := by
  iterate 8
    obtain ⟨-, h⟩ | ⟨-, h⟩ := ite_eq_iff.1 h
    · obtain rfl := Option.some.inj h
      decide
  cases h

/-- What a round adds is the encoding of a character. -/
theorem exists_char_of_scanChar {input bytes rest : Bytes} (h : scanChar input = .added bytes rest) :
    (∃ c, bytes = String.utf8EncodeChar c) ∧ rest.length < input.length := by
  cases input with
  | nil => cases h
  | cons b input =>
    simp only [scanChar] at h
    split_ifs at h with hquote hslash
    · cases input with
      | nil => cases h
      | cons b input =>
        simp only at h
        split_ifs at h with hunicode
        · split at h
          case h_1 codepoint input' hscan =>
            obtain ⟨rfl, rfl⟩ := Round.added.inj h
            obtain ⟨hvalid, hlength⟩ := isValidChar_scanUnicode hscan
            obtain ⟨c, rfl⟩ := exists_char hvalid
            exact ⟨⟨c, codepointBytes_toNat c⟩, by simp only [List.length_cons]; omega⟩
          case h_2 => cases h
        · split at h
          case h_1 d hd =>
            obtain ⟨rfl, rfl⟩ := Round.added.inj h
            exact ⟨exists_char_one (le_of_escaped hd), (Nat.lt_succ_self _).trans (Nat.lt_succ_self _)⟩
          case h_2 => cases h
    · split at h
      case h_1 ranges hranges =>
        split at h
        case h_1 taken input' htaken =>
          obtain ⟨rfl, rfl⟩ := Round.added.inj h
          obtain ⟨hchar, hinput⟩ := exists_char_of_ranges hranges htaken
          refine ⟨hchar, ?_⟩
          rw [hinput]
          simp only [List.length_cons, List.length_append]
          omega
        case h_2 => cases h
      case h_2 => cases h

theorem length_scanChar_closed {input rest : Bytes} (h : scanChar input = .closed rest) :
    input = 0x22 :: rest := by
  cases input with
  | nil => cases h
  | cons b input =>
    simp only [scanChar] at h
    split_ifs at h with hquote hslash
    · rw [hquote, Round.closed.inj h]
    · cases input with
      | nil => cases h
      | cons b input =>
        simp only at h
        split_ifs at h
        · split at h <;> cases h
        · split at h <;> cases h
    · split at h
      · split at h <;> cases h
      · cases h

theorem scanStringStep_eq_inl {s t : Bytes × Bytes} (h : scanStringStep s = .inl t) :
    ∃ c, t.1 = s.1 ++ String.utf8EncodeChar c ∧ t.2.length < s.2.length := by
  obtain ⟨buffer, input⟩ := s
  simp only [scanStringStep] at h
  split at h
  case h_1 | h_3 => cases h
  case h_2 bytes rest hround =>
    obtain rfl := Sum.inl.inj h
    obtain ⟨⟨c, rfl⟩, hlength⟩ := exists_char_of_scanChar hround
    exact ⟨c, rfl, hlength⟩

/-- The bound on the rounds is never reached. -/
theorem isSome_scanString (input : Bytes) : (loop scanStringStep (input.length + 1) ([], input)).isSome := by
  have hvariant : ∀ s t : Bytes × Bytes, scanStringStep s = .inl t → t.2.length < s.2.length := by
    intro s t h
    obtain ⟨c, -, hlength⟩ := scanStringStep_eq_inl h
    exact hlength
  exact isSome_of_variant (μ := fun s => s.2.length) hvariant (Nat.lt_succ_self _)

/-- **A string that is accepted is valid UTF-8.** -/
theorem valid_scanString {input rest : Bytes} {t : Token} (h : scanString input = (t, rest)) (herror : t ≠ .parseError) :
    (∃ cs, t = .valueString (utf8 cs)) ∧ rest.length < input.length := by
  obtain ⟨r, hr⟩ := Option.isSome_iff_exists.1 (isSome_scanString input)
  rw [scanString, hr, Option.getD_some] at h
  obtain rfl := h
  have hstep : ∀ s t : Bytes × Bytes, ((∃ cs, s.1 = utf8 cs) ∧ s.2.length ≤ input.length) →
      scanStringStep s = .inl t → (∃ cs, t.1 = utf8 cs) ∧ t.2.length ≤ input.length := by
    rintro s t ⟨⟨cs, hcs⟩, hle⟩ hst
    obtain ⟨c, hbuffer, hlength⟩ := scanStringStep_eq_inl hst
    refine ⟨⟨cs ++ [c], ?_⟩, by omega⟩
    rw [hbuffer, hcs, utf8_append]
    simp [utf8]
  have hexit : ∀ (s : Bytes × Bytes) (r : Token × Bytes), ((∃ cs, s.1 = utf8 cs) ∧ s.2.length ≤ input.length) →
      scanStringStep s = .inr r → r.1 ≠ .parseError →
        (∃ cs, r.1 = .valueString (utf8 cs)) ∧ r.2.length < input.length := by
    rintro ⟨buffer, input'⟩ r ⟨⟨cs, rfl⟩, hle⟩ hst hne
    simp only [scanStringStep] at hst
    split at hst
    case h_1 rest' hround =>
      obtain rfl := Sum.inr.inj hst
      rw [length_scanChar_closed hround] at hle
      exact ⟨⟨cs, rfl⟩, hle⟩
    case h_2 => cases hst
    case h_3 =>
      obtain rfl := Sum.inr.inj hst
      exact absurd rfl hne
  exact loop_invariant hstep hexit ⟨⟨[], rfl⟩, le_rfl⟩ hr herror

/-! ## What the serializer writes is read back -/

theorem scanChar_control {n : ℕ} (h : n ≤ 0x1F) (input : Bytes) :
    scanChar (utf8 ['\\', 'u', '0', '0', hexDigit (n / 16), hexDigit (n % 16)] ++ input) =
      .added [.ofNat n] input := by
  interval_cases n <;> rfl

/-- An escaped character is read back. -/
theorem scanChar_escapeChar (c : Char) (input : Bytes) :
    scanChar (utf8 (escapeChar c) ++ input) = .added (String.utf8EncodeChar c) input := by
  unfold escapeChar
  iterate 5
    split
    · subst c
      rfl
  split
  · subst c
    rfl
  case isFalse hquote =>
  split
  · subst c
    rfl
  case isFalse hslash =>
  split
  case isTrue hctrl => rw [scanChar_control hctrl, utf8EncodeChar_of_lt (by omega)]
  case isFalse hctrl =>
    have hne : ∀ d : Char, c ≠ d → c.toNat ≠ d.toNat := fun d hd heq => hd (Char.toNat_inj.1 heq)
    have hsingle : utf8 [c] = String.utf8EncodeChar c := by simp [utf8]
    rw [hsingle]
    exact scanChar_utf8EncodeChar (by omega) (hne '"' hquote) (hne '\\' hslash) input

theorem leads_scanString (cs : List Char) (buffer input : Bytes) :
    Leads scanStringStep (buffer, utf8 (cs.flatMap escapeChar) ++ 0x22 :: input)
      (buffer ++ utf8 cs, 0x22 :: input) := by
  induction cs generalizing buffer with
  | nil =>
    rw [List.flatMap_nil, utf8_nil, List.append_nil, List.nil_append]
    exact .refl _
  | cons c cs ih =>
    refine .head (t := (buffer ++ String.utf8EncodeChar c, utf8 (cs.flatMap escapeChar) ++ 0x22 :: input)) ?_ ?_
    · rw [List.flatMap_cons, utf8_append, List.append_assoc, scanStringStep, scanChar_escapeChar]
    · rw [utf8_cons, ← List.append_assoc]
      exact ih _

theorem scanString_quote (s : String) (input : Bytes) :
    scanString (utf8 (s.toList.flatMap escapeChar) ++ 0x22 :: input) = (.valueString (utf8 s.toList), input) := by
  rw [scanString, loop_eq_of_leads (leads_scanString s.toList [] input) rfl (isSome_scanString _), Option.getD_some,
    List.nil_append]

/-! ### Numbers -/

/-- No byte that a number could go on with. -/
def EndsNumber (input : Bytes) : Prop := ∀ b ∈ input.head?, isDigit b = false ∧ b ≠ 0x2E ∧ isExponent b = false

theorem utf8EncodeChar_of_isDigit {c : Char} (h : c.isDigit) : ∃ b, String.utf8EncodeChar c = [b] ∧
    b.toNat = c.toNat ∧ isDigit b = true := by
  have hdigit : 48 ≤ c.toNat ∧ c.toNat ≤ 57 := by
    simp only [Char.isDigit, Bool.and_eq_true, decide_eq_true_eq] at h
    exact ⟨h.1, h.2⟩
  have hb : (UInt8.ofNat c.toNat).toNat = c.toNat := toNat_ofNat (by omega)
  refine ⟨_, utf8EncodeChar_of_lt (by omega), hb, ?_⟩
  rw [isDigit, hb]
  exact decide_eq_true ⟨hdigit.1, hdigit.2⟩

theorem foldl_digits {cs : List Char} (h : ∀ c ∈ cs, c.isDigit) (init : ℕ) :
    (utf8 cs).foldl (fun n b => 10 * n + (b.toNat - 0x30)) init = Nat.ofDigitChars 10 cs init := by
  induction cs generalizing init with
  | nil => rfl
  | cons c cs ih =>
    obtain ⟨b, hc, hb, -⟩ := utf8EncodeChar_of_isDigit (h c (List.mem_cons_self ..))
    rw [utf8_cons, hc, List.singleton_append, List.foldl_cons, hb, Nat.ofDigitChars_cons,
      ih fun d hd => h d (List.mem_cons_of_mem _ hd)]
    rfl

theorem digitsValue_toDigits (n : ℕ) : digitsValue (utf8 (Nat.toDigits 10 n)) = n := by
  have hdigit : ∀ c ∈ Nat.toDigits 10 n, c.isDigit := fun c hc => Nat.isDigit_of_mem_toDigits (by decide) (by decide) hc
  rw [digitsValue, foldl_digits hdigit, Nat.ofDigitChars_ten_toDigits]

/-- A number starts with a zero only when it is zero. -/
theorem exists_toDigits {n : ℕ} (h : n ≠ 0) : ∃ d cs, Nat.toDigits 10 n = d :: cs ∧ d ≠ '0' := by
  induction n using Nat.strong_induction_on with
  | _ n ih =>
    by_cases hn : n < 10
    · refine ⟨n.digitChar, [], Nat.toDigits_of_lt_base hn, ?_⟩
      interval_cases n <;> first | omega | decide
    · obtain ⟨d, cs, hd, hne⟩ := ih (n / 10) (by omega) (by omega)
      exact ⟨d, cs ++ [Nat.digitChar (n % 10)],
        by rw [Nat.toDigits_of_base_le (by decide) (by omega), hd, List.cons_append], hne⟩

theorem scanNumberFrom_done {t : NumberType} {s : NumberState} {input : Bytes} (hs : s.isDone = true)
    (h : EndsNumber input) (buffer : Bytes) : scanNumberFrom t s buffer input = some (t, buffer, input) := by
  cases input with
  | nil => rw [scanNumberFrom, if_pos hs]
  | cons b input =>
    obtain ⟨hdigit, hpoint, hexp⟩ := h b rfl
    rw [scanNumberFrom]
    cases s with
    | zero | any1 | decimal2 | any2 => simp [NumberState.next, hdigit, hpoint, hexp]
    | minus | decimal1 | exponent | sign => cases hs

theorem scanNumberFrom_any1 {t : NumberType} {cs : List Char} (hcs : ∀ c ∈ cs, c.isDigit) {input : Bytes}
    (h : EndsNumber input) (buffer : Bytes) :
    scanNumberFrom t .any1 buffer (utf8 cs ++ input) = some (t, buffer ++ utf8 cs, input) := by
  induction cs generalizing buffer with
  | nil => rw [utf8_nil, List.nil_append, List.append_nil, scanNumberFrom_done rfl h]
  | cons c cs ih =>
    obtain ⟨b, hc, -, hb⟩ := utf8EncodeChar_of_isDigit (hcs c (List.mem_cons_self ..))
    rw [utf8_cons, hc, List.append_assoc, List.singleton_append, scanNumberFrom]
    simp only [NumberState.next, hb, if_true]
    exact (ih (fun d hd => hcs d (List.mem_cons_of_mem _ hd)) _).trans (by rw [List.append_assoc])

/-- The token of an integer. -/
def integerToken (n : ℤ) : Token := if 0 ≤ n then .valueUnsigned n.toNat else .valueInteger n

/-- What an `int64_t` or a `uint64_t` holds. -/
def InRange (n : ℤ) : Prop := -2 ^ 63 ≤ n ∧ n < 2 ^ 64

section Scan

variable (strtod : Strtod)

theorem scan_number {b : Byte} (h : b = 0x2D ∨ isDigit b = true) (input : Bytes) :
    scan strtod (b :: input) = scanNumber strtod b input := by
  have hne : ∀ c : Byte, c ≠ 0x2D → isDigit c = false → b ≠ c := by
    rintro c hc hdigit rfl
    rcases h with rfl | h
    · exact hc rfl
    · exact absurd (h.symm.trans hdigit) (by decide)
  have hspace : isSpace b = false := by
    simp only [isSpace, decide_eq_false_iff_not, not_or]
    exact ⟨hne _ (by decide) (by decide), hne _ (by decide) (by decide), hne _ (by decide) (by decide),
      hne _ (by decide) (by decide)⟩
  have hstructural : structural b = none := by
    rw [structural, if_neg (hne _ (by decide) (by decide)), if_neg (hne _ (by decide) (by decide)),
      if_neg (hne _ (by decide) (by decide)), if_neg (hne _ (by decide) (by decide)),
      if_neg (hne _ (by decide) (by decide)), if_neg (hne _ (by decide) (by decide))]
  have hliteral : literal b = none := by
    rw [literal, if_neg (hne _ (by decide) (by decide)), if_neg (hne _ (by decide) (by decide)),
      if_neg (hne _ (by decide) (by decide))]
  rw [scan, List.dropWhile_cons_of_neg (by simp [hspace])]
  simp only [hstructural, hliteral]
  rw [if_neg (hne _ (by decide) (by decide)), if_pos h]

/-- **An integer is read back**, wherever the text goes on with no part of a number. -/
theorem scan_toString {n : ℤ} (hn : InRange n) {input : Bytes} (h : EndsNumber input) :
    scan strtod (utf8 (toString n).toList ++ input) = (integerToken n, input) := by
  have hdigits : ∀ m : ℕ, ∀ c ∈ Nat.toDigits 10 m, c.isDigit :=
    fun m c hc => Nat.isDigit_of_mem_toDigits (by decide) (by decide) hc
  have hfirst : ∀ {m : ℕ} {d : Char} {cs : List Char}, Nat.toDigits 10 m = d :: cs → d ≠ '0' →
      ∃ b, utf8 (Nat.toDigits 10 m) = b :: utf8 cs ∧ isDigit b = true ∧ b ≠ 0x30 ∧ b ≠ 0x2D := by
    intro m d cs hd hne
    obtain ⟨b, hc, hb, hdigit⟩ := utf8EncodeChar_of_isDigit (hdigits m d (hd ▸ List.mem_cons_self ..))
    refine ⟨b, by rw [hd, utf8_cons, hc, List.singleton_append], hdigit, ?_, ?_⟩
    · rintro rfl
      exact hne (Char.toNat_inj.1 hb.symm)
    · rintro rfl
      cases hdigit
  rw [toList_toString]
  cases n with
  | ofNat m =>
    by_cases hm : m = 0
    · subst hm
      show scan strtod (0x30 :: input) = _
      rw [scan_number strtod (.inr rfl), scanNumber]
      simp only [show (0x30 : Byte) ≠ 0x2D by decide, if_false, if_true]
      rw [scanNumberFrom_done rfl h]
      rfl
    · obtain ⟨d, cs, hd, hne⟩ := exists_toDigits hm
      obtain ⟨b, hb, hdigit, hzero, hminus⟩ := hfirst hd hne
      have hcs : ∀ c ∈ cs, c.isDigit := fun c hc => hdigits m c (hd ▸ List.mem_cons_of_mem _ hc)
      simp only [hb, List.cons_append]
      rw [scan_number strtod (.inr hdigit), scanNumber]
      simp only [if_neg hminus, if_neg hzero]
      rw [scanNumberFrom_any1 hcs h]
      have hvalue : digitsValue ([b] ++ utf8 cs) = m := by
        rw [List.singleton_append, ← hb, digitsValue_toDigits]
      have hlt : m < 2 ^ 64 := by
        have := hn.2
        simp only [Int.ofNat_eq_natCast] at this
        omega
      simp only [NumberState.type, convert, hvalue, if_pos hlt, integerToken, Int.ofNat_eq_natCast, Int.natCast_nonneg,
        if_true, Int.toNat_natCast]
  | negSucc m =>
    obtain ⟨d, cs, hd, hne⟩ := exists_toDigits (Nat.succ_ne_zero m)
    obtain ⟨b, hb, hdigit, hzero, -⟩ := hfirst hd hne
    have hcs : ∀ c ∈ cs, c.isDigit := fun c hc => hdigits (m + 1) c (hd ▸ List.mem_cons_of_mem _ hc)
    simp only [utf8_cons, show String.utf8EncodeChar '-' = [0x2D] from rfl, List.cons_append]
    rw [scan_number strtod (.inl rfl), scanNumber, hb, List.nil_append, List.cons_append]
    simp only [if_true, scanNumberFrom, NumberState.next, if_neg hzero, hdigit]
    rw [scanNumberFrom_any1 hcs h]
    have hvalue : digitsValue (b :: utf8 cs) = m + 1 := by
      rw [← hb, digitsValue_toDigits]
    have hge : (-2 : ℤ) ^ 63 ≤ -(m + 1 : ℕ) := by
      have := hn.1
      omega
    have htail : ([0x2D] ++ [b] ++ utf8 cs : Bytes).tail = b :: utf8 cs := rfl
    simp only [NumberState.type, convert, htail, hvalue, integerToken]
    rw [if_pos (by omega), if_neg (by omega)]
    rfl

theorem scan_quote (s : String) (input : Bytes) :
    scan strtod (utf8 (quote s) ++ input) = (.valueString (utf8 s.toList), input) := by
  have hquote : utf8 (quote s) ++ input = 0x22 :: (utf8 (s.toList.flatMap escapeChar) ++ 0x22 :: input) := by
    rw [quote, List.cons_append, utf8_cons, utf8_append]
    simp [utf8, show String.utf8EncodeChar '"' = [0x22] from rfl]
  rw [hquote]
  exact scanString_quote s input

theorem scan_true (input : Bytes) : scan strtod (utf8 "true".toList ++ input) = (.literalTrue, input) := rfl

theorem scan_false (input : Bytes) : scan strtod (utf8 "false".toList ++ input) = (.literalFalse, input) := rfl

theorem scan_null (input : Bytes) : scan strtod (utf8 "null".toList ++ input) = (.literalNull, input) := rfl

/-! ## A token takes at least a byte -/

theorem length_scanNumberFrom {t t' : NumberType} {s : NumberState} {buffer buffer' input rest : Bytes}
    (h : scanNumberFrom t s buffer input = some (t', buffer', rest)) : rest.length ≤ input.length := by
  induction input generalizing t s buffer with
  | nil =>
    rw [scanNumberFrom] at h
    split_ifs at h
    simp only [Option.some.injEq, Prod.mk.injEq] at h
    simp [← h.2.2]
  | cons b input ih =>
    rw [scanNumberFrom] at h
    split at h
    case h_1 s' _ => exact (ih h).trans (Nat.le_succ _)
    case h_2 =>
      simp only [Option.some.injEq, Prod.mk.injEq] at h
      simp [← h.2.2]
    case h_3 => cases h

theorem length_scanLiteral {literal : List Char} {t t' : Token} {input rest : Bytes}
    (h : scanLiteral literal t' input = (t, rest)) (herror : t ≠ .parseError) : rest.length ≤ input.length := by
  unfold scanLiteral at h
  split at h
  · rw [← (Prod.mk.inj h).2, List.length_drop]
    omega
  · exact absurd (Prod.mk.inj h).1.symm herror

theorem length_scanNumber {b : Byte} {input rest : Bytes} {t : Token} (h : scanNumber strtod b input = (t, rest))
    (herror : t ≠ .parseError) : rest.length ≤ input.length := by
  simp only [scanNumber] at h
  split at h
  case h_1 hfrom => exact (Prod.mk.inj h).2 ▸ length_scanNumberFrom hfrom
  case h_2 => exact absurd (Prod.mk.inj h).1.symm herror

/-- Every token that is neither an error nor the end takes a byte. -/
theorem length_scan {input rest : Bytes} {t : Token} (h : scan strtod input = (t, rest))
    (herror : t ≠ .parseError) (hend : t ≠ .endOfInput) : rest.length < input.length := by
  have hdrop : (input.dropWhile isSpace).length ≤ input.length := (List.dropWhile_sublist _).length_le
  unfold scan at h
  split at h
  case h_1 => exact absurd (Prod.mk.inj h).1.symm hend
  case h_2 b l hl =>
    rw [hl, List.length_cons] at hdrop
    suffices hle : rest.length ≤ l.length by omega
    split at h
    case h_1 => exact (Prod.mk.inj h).2 ▸ le_rfl
    case h_2 => exact length_scanLiteral h herror
    case h_3 =>
      split at h
      · exact (valid_scanString h herror).2.le
      split at h
      · exact length_scanNumber strtod h herror
      split at h
      · exact absurd (Prod.mk.inj h).1.symm hend
      · exact absurd (Prod.mk.inj h).1.symm herror

/-- The strings among the tokens are valid UTF-8. -/
theorem valid_scan {input rest s : Bytes} (h : scan strtod input = (.valueString s, rest)) :
    ∃ cs, s = utf8 cs := by
  have hconvert : ∀ t buffer, convert strtod t buffer ≠ .valueString s := by
    intro t buffer
    cases t with
    | unsigned | integer =>
      simp only [convert]
      split <;> simp
    | float => simp [convert]
  have hstructural : ∀ b, structural b ≠ some (.valueString s) := by
    intro b hb
    iterate 6
      obtain ⟨-, hb⟩ | ⟨-, hb⟩ := ite_eq_iff.1 hb
      · cases hb
    cases hb
  have hliteral : ∀ b text, literal b ≠ some (text, .valueString s) := by
    intro b text hb
    iterate 3
      obtain ⟨-, hb⟩ | ⟨-, hb⟩ := ite_eq_iff.1 hb
      · cases hb
    cases hb
  unfold scan at h
  split at h
  case h_1 => cases h
  case h_2 b l hl =>
    split at h
    case h_1 hb => exact absurd ((Prod.mk.inj h).1 ▸ hb) (hstructural b)
    case h_2 text t _ hb =>
      unfold scanLiteral at h
      split at h
      · exact absurd ((Prod.mk.inj h).1 ▸ hb) (hliteral b text)
      · cases h
    case h_3 =>
      split at h
      · obtain ⟨cs, hcs⟩ := (valid_scanString h (by simp)).1
        exact ⟨cs, Token.valueString.inj hcs⟩
      split at h
      · simp only [scanNumber] at h
        split at h
        · exact absurd (Prod.mk.inj h).1 (hconvert _ _)
        · cases h
      split at h <;> cases h

end Scan

end Chatroom.Json
