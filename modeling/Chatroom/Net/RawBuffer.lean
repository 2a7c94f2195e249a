import Mathlib.Logic.Function.Basic
import Chatroom.Lib.Machine
import Chatroom.Net.Buffer

/-!
# `Buffer` on the machine, and the byte queue it implements

The member functions of `Buffer` as the machine runs them: the indices and the arguments are `size_t`, sums and
differences wrap around, a failed `assert` ends the process, `vector::resize` throws above its maximal size and
a copy outside the vector is undefined. A `RawBuffer` has no invariant of its own; `Buffer.raw` embeds the
buffers whose indices are in bounds, and inside the bounds each member function is the operation of
`Chatroom.Net.Buffer` (`raw_append` and its siblings). On top stand the byte queues: any number of buffers, all
calls in any order, and a plain byte string beside each buffer (`buffer_refines_queue`).
-/

namespace Chatroom.Net

/-! ## `size_t` -/

/-- The sum of two `size_t`. -/
def addSize (a b : ℕ) : ℕ := (a + b) % 2 ^ 64

/-- The difference of two `size_t`. -/
def subSize (a b : ℕ) : ℕ := (a + (2 ^ 64 - b)) % 2 ^ 64

/-- `std::vector<char>::max_size()` -/
def maxSize : ℕ := 2 ^ 63 - 1

theorem addSize_eq {a b : ℕ} (h : a + b < 2 ^ 64) : addSize a b = a + b := Nat.mod_eq_of_lt h

theorem subSize_eq {a b : ℕ} (ha : a < 2 ^ 64) (h : b ≤ a) : subSize a b = a - b := by
  unfold subSize
  omega

/-! ## The member functions -/

/-- What ends the process: a failed `assert`, or a copy outside the vector. -/
inductive Failure where
  | assertion (text : String)
  | overrun

/-- How a call ends. -/
inductive Outcome (α : Type) where
  | returned (a : α)
  /-- `std::length_error` leaves the call; `a` is what it leaves behind -/
  | threw (a : α)
  | failed (f : Failure)

namespace Outcome

variable {α : Type}

def andThen (o : Outcome α) (f : α → Outcome α) : Outcome α :=
  match o with
  | returned a => f a
  | o => o

@[simp] theorem andThen_returned (a : α) (f : α → Outcome α) : (returned a).andThen f = f a := rfl
@[simp] theorem andThen_threw (a : α) (f : α → Outcome α) : (threw a).andThen f = threw a := rfl
@[simp] theorem andThen_failed (e : Failure) (f : α → Outcome α) :
    (failed e).andThen f = failed e := rfl

theorem andThen_eq_returned {o : Outcome α} {f : α → Outcome α} {a : α} (h : o.andThen f = returned a) :
    ∃ a', o = returned a' ∧ f a' = returned a := by
  cases o with
  | returned a' => exact ⟨a', rfl, h⟩
  | threw a' => cases h
  | failed e => cases h

theorem andThen_eq_threw {o : Outcome α} {f : α → Outcome α} {a : α} (h : o.andThen f = threw a) :
    o = threw a ∨ ∃ a', o = returned a' ∧ f a' = threw a := by
  cases o with
  | returned a' => exact .inr ⟨a', rfl, h⟩
  | threw a' => exact .inl h
  | failed e => cases h

end Outcome

/-- `assert` -/
def assert {α : Type} (p : Prop) [Decidable p] (text : String) (a : α) : Outcome α :=
  if p then .returned a else .failed (.assertion text)

theorem assert_pos {α : Type} {p : Prop} [Decidable p] {text : String} {a : α} (h : p) :
    assert p text a = .returned a := if_pos h

theorem assert_neg {α : Type} {p : Prop} [Decidable p] {text : String} {a : α} (h : ¬ p) :
    assert p text a = .failed (.assertion text) := if_neg h

theorem assert_eq_returned {α : Type} {p : Prop} [Decidable p] {text : String} {a a' : α}
    (h : assert p text a = .returned a') : p ∧ a = a' := by
  by_cases hp : p
  · rw [assert_pos hp] at h
    cases h
    exact ⟨hp, rfl⟩
  · rw [assert_neg hp] at h
    cases h

theorem assert_ne_threw {α : Type} {p : Prop} [Decidable p] {text : String} {a a' : α} :
    assert p text a ≠ .threw a' := by
  unfold assert
  split <;> exact fun h => nomatch h

/-- The three members of `Buffer`. -/
structure RawBuffer where
  m_buffer : Bytes
  m_readIndex : ℕ
  m_writeIndex : ℕ

namespace RawBuffer

/-- The constructor. -/
def new : RawBuffer where
  m_buffer := List.replicate (kCheapPrepend + kInitialSize) 0
  m_readIndex := kCheapPrepend
  m_writeIndex := kCheapPrepend

variable (b : RawBuffer)

def readableBytes : ℕ := subSize b.m_writeIndex b.m_readIndex
def writableBytes : ℕ := subSize b.m_buffer.length b.m_writeIndex
def prependableBytes : ℕ := b.m_readIndex

/-- What `peek()` points at, up to `beginWrite()`. -/
def readable : Bytes := (b.m_buffer.drop b.m_readIndex).take b.readableBytes

/-- `findCRLF`: `std::search` gives the end of its range when there is no CR LF, and the end becomes the
null pointer. -/
def findCRLF : Option ℕ :=
  let crlf := (searchCRLF b.readable).getD b.readable.length
  if crlf = b.readable.length then none else some crlf

/-- `std::copy` into the vector. -/
def copyTo (position : ℕ) (data : Bytes) : Outcome RawBuffer :=
  if position + data.length ≤ b.m_buffer.length then
    .returned { b with
      m_buffer := b.m_buffer.take position ++ data ++ b.m_buffer.drop (position + data.length) }
  else .failed .overrun

/-- `m_buffer.resize` -/
def resize (size : ℕ) : Outcome RawBuffer :=
  if size ≤ maxSize then
    .returned { b with
      m_buffer := b.m_buffer.take size ++ List.replicate (size - b.m_buffer.length) 0 }
  else .threw b

def retrieveAll : RawBuffer :=
  { b with m_readIndex := kCheapPrepend, m_writeIndex := kCheapPrepend }

def retrieve (len : ℕ) : Outcome RawBuffer :=
  (assert (len ≤ b.readableBytes) "len <= readableBytes()" b).andThen fun b =>
  if len < b.readableBytes then .returned { b with m_readIndex := addSize b.m_readIndex len }
  else .returned b.retrieveAll

/-- `retrieveUntil`; `stop` is the offset of the pointer `end` in the vector. -/
def retrieveUntil (stop : ℕ) : Outcome RawBuffer :=
  (assert (b.m_readIndex ≤ stop) "peek() <= end" b).andThen fun b =>
  (assert (stop ≤ b.m_writeIndex) "end <= beginWrite()" b).andThen fun b =>
  b.retrieve (stop - b.m_readIndex)

def retrieveAsString : Bytes × RawBuffer := (b.readable, b.retrieveAll)

def hasWritten (len : ℕ) : RawBuffer := { b with m_writeIndex := addSize b.m_writeIndex len }

def makeSpace (len : ℕ) : Outcome RawBuffer :=
  if addSize b.writableBytes b.prependableBytes < addSize len kCheapPrepend then
    b.resize (addSize b.m_writeIndex len)
  else
    (assert (kCheapPrepend < b.m_readIndex) "kCheapPrepend < m_readIndex" b).andThen fun b =>
    let readable := b.readableBytes
    (b.copyTo kCheapPrepend b.readable).andThen fun b =>
    let b := { b with m_readIndex := kCheapPrepend, m_writeIndex := addSize kCheapPrepend readable }
    assert (readable = b.readableBytes) "readable == readableBytes()" b

def ensureWritableBytes (len : ℕ) : Outcome RawBuffer :=
  (if b.writableBytes < len then b.makeSpace len else .returned b).andThen fun b =>
  assert (len ≤ b.writableBytes) "writableBytes() >= len" b

def append (data : Bytes) : Outcome RawBuffer :=
  (b.ensureWritableBytes data.length).andThen fun b =>
  (b.copyTo b.m_writeIndex data).andThen fun b =>
  .returned (b.hasWritten data.length)

def prepend (data : Bytes) : Outcome RawBuffer :=
  (assert (data.length ≤ b.prependableBytes) "len <= prependableBytes()" b).andThen fun b =>
  let b := { b with m_readIndex := subSize b.m_readIndex data.length }
  b.copyTo b.m_readIndex data

/-- The size of `extrabuf`. -/
def extraSize : ℕ := 65536

/-- `readFd`: `n` are the bytes that `readv` delivers, `none` a negative result. -/
def readFd (n : Option Bytes) : Outcome RawBuffer :=
  match n with
  | none => .returned b
  | some data =>
    let writable := b.writableBytes
    -- the kernel fills the vector up to its end before it turns to extrabuf
    (b.copyTo b.m_writeIndex (data.take writable)).andThen fun b =>
    if data.length ≤ writable then
      .returned { b with m_writeIndex := addSize b.m_writeIndex data.length }
    else { b with m_writeIndex := b.m_buffer.length }.append (data.drop writable)

end RawBuffer

/-! ## Buffers in bounds -/

namespace Buffer

variable (b : Buffer)

/-- The buffer without the bounds. -/
def raw : RawBuffer := ⟨b.m_buffer, b.m_readIndex, b.m_writeIndex⟩

@[simp] theorem raw_m_buffer : b.raw.m_buffer = b.m_buffer := rfl
@[simp] theorem raw_m_readIndex : b.raw.m_readIndex = b.m_readIndex := rfl
@[simp] theorem raw_m_writeIndex : b.raw.m_writeIndex = b.m_writeIndex := rfl
@[simp] theorem raw_prependableBytes : b.raw.prependableBytes = b.prependableBytes := rfl

/-- What holds of every buffer besides its bounds: the write index never goes back behind the reserve, and
the vector is one that `vector` can hold. -/
structure Sized : Prop where
  prepend_le_write : kCheapPrepend ≤ b.m_writeIndex
  size_le : b.m_buffer.length ≤ maxSize

theorem length_prepended {data : Bytes} (h : data.length ≤ b.prependableBytes) :
    (b.m_buffer.take (b.m_readIndex - data.length) ++ data ++ b.m_buffer.drop b.m_readIndex).length =
      b.m_buffer.length := by
  have h₁ := b.read_le_write
  have h₂ := b.write_le_size
  unfold prependableBytes at h
  simp only [List.length_append, List.length_take, List.length_drop]
  omega

/-- `std::copy` in front of the content. -/
def prepend (data : Bytes) (_h : data.length ≤ b.prependableBytes) : Buffer where
  m_buffer := b.m_buffer.take (b.m_readIndex - data.length) ++ data ++ b.m_buffer.drop b.m_readIndex
  m_readIndex := b.m_readIndex - data.length
  m_writeIndex := b.m_writeIndex
  read_le_write := le_trans (Nat.sub_le _ _) b.read_le_write
  write_le_size := le_of_le_of_eq b.write_le_size (b.length_prepended _h).symm
  prepend_le_size := le_of_le_of_eq b.prepend_le_size (b.length_prepended _h).symm

/-- The caller copies bytes to `beginWrite()`; no index moves. -/
def fill (data : Bytes) (_h : data.length ≤ b.writableBytes) : Buffer :=
  { b with
    m_buffer := b.m_buffer.take b.m_writeIndex ++ data ++ b.m_buffer.drop (b.m_writeIndex + data.length)
    write_le_size := le_trans (Nat.le_add_right _ _) (b.write data _h).write_le_size
    prepend_le_size := (b.write data _h).prepend_le_size }

/-- The bytes at `beginWrite()`. -/
def unwritten (len : ℕ) : Bytes := (b.m_buffer.drop b.m_writeIndex).take len

theorem length_unwritten {len : ℕ} (h : len ≤ b.writableBytes) : (b.unwritten len).length = len := by
  unfold writableBytes at h
  simp only [unwritten, List.length_take, List.length_drop]
  omega

@[simp] theorem content_prepend (data : Bytes) (h : data.length ≤ b.prependableBytes) :
    (b.prepend data h).content = data ++ b.content := by
  have h₁ := b.read_le_write
  have h₂ := b.write_le_size
  unfold prependableBytes at h
  have hl : (b.m_buffer.take (b.m_readIndex - data.length)).length = b.m_readIndex - data.length := by
    simp only [List.length_take]
    omega
  have hr : b.m_writeIndex - (b.m_readIndex - data.length) = data.length + b.readableBytes := by
    unfold readableBytes
    omega
  conv_lhs => unfold content
  simp only [prepend, readableBytes]
  rw [hr, List.append_assoc, List.drop_left' hl, List.take_length_add_append]
  rfl

@[simp] theorem content_fill (data : Bytes) (h : data.length ≤ b.writableBytes) :
    (b.fill data h).content = b.content := by
  have h₁ := b.read_le_write
  have hl := b.length_written
  conv_lhs => unfold content
  simp only [fill, readableBytes]
  rw [List.append_assoc, List.drop_append_of_le_length (by omega), drop_written, ← readableBytes,
    List.take_left' b.length_content]

/-! ### The vector stays within its limits -/

theorem sized_new : new.Sized := by
  refine ⟨le_rfl, ?_⟩
  have hl : new.m_buffer.length = kCheapPrepend + kInitialSize := List.length_replicate
  rw [hl]
  decide

variable {b}

theorem Sized.retrieveAll (hb : b.Sized) : b.retrieveAll.Sized := ⟨le_rfl, hb.size_le⟩

theorem Sized.retrieve (hb : b.Sized) (len : ℕ) : (b.retrieve len).Sized := by
  unfold Buffer.retrieve
  split
  · exact ⟨hb.prepend_le_write, hb.size_le⟩
  · exact hb.retrieveAll

theorem Sized.write (hb : b.Sized) {data : Bytes} (h : data.length ≤ b.writableBytes) :
    (b.write data h).Sized := by
  have h₁ := hb.prepend_le_write
  have h₂ := hb.size_le
  have h₃ := b.write_le_size
  unfold writableBytes at h
  refine ⟨?_, ?_⟩ <;> simp only [Buffer.write, List.length_append, List.length_take, List.length_drop] <;>
    omega

theorem Sized.fill (hb : b.Sized) {data : Bytes} (h : data.length ≤ b.writableBytes) :
    (b.fill data h).Sized := ⟨hb.prepend_le_write, (hb.write h).size_le⟩

theorem Sized.prepend (hb : b.Sized) {data : Bytes} (h : data.length ≤ b.prependableBytes) :
    (b.prepend data h).Sized := by
  refine ⟨hb.prepend_le_write, ?_⟩
  rw [Buffer.prepend, b.length_prepended h]
  exact hb.size_le

theorem Sized.makeSpace (hb : b.Sized) {len : ℕ} (hlt : b.writableBytes < len)
    (h : len + kCheapPrepend ≤ b.writableBytes + b.prependableBytes ∨ b.m_writeIndex + len ≤ maxSize) :
    (b.makeSpace len).Sized := by
  have h₁ := hb.prepend_le_write
  have h₂ := hb.size_le
  have h₃ := b.read_le_write
  have h₄ := b.write_le_size
  unfold Buffer.makeSpace
  unfold writableBytes prependableBytes at *
  split
  · refine ⟨h₁, ?_⟩
    simp only [List.length_append, List.length_replicate]
    omega
  · refine ⟨Nat.le_add_right _ _, ?_⟩
    simp only [List.length_append, List.length_take, List.length_drop, length_content, readableBytes]
    omega

theorem Sized.ensureWritableBytes (hb : b.Sized) {len : ℕ}
    (h : len ≤ b.writableBytes ∨ len + kCheapPrepend ≤ b.writableBytes + b.prependableBytes ∨
      b.m_writeIndex + len ≤ maxSize) : (b.ensureWritableBytes len).Sized := by
  unfold Buffer.ensureWritableBytes
  split
  · exact hb.makeSpace (by assumption) (h.resolve_left (by omega))
  · exact hb

/-! ### Inside the bounds the calls are the operations of `Buffer` -/

theorem Sized.bounds (hb : b.Sized) :
    b.m_readIndex ≤ b.m_writeIndex ∧ b.m_writeIndex ≤ b.m_buffer.length ∧ b.m_buffer.length < 2 ^ 63 ∧
      8 ≤ b.m_writeIndex :=
  ⟨b.read_le_write, b.write_le_size, lt_of_le_of_lt hb.size_le (by decide), hb.prepend_le_write⟩

theorem raw_readableBytes (hb : b.Sized) : b.raw.readableBytes = b.readableBytes := by
  obtain ⟨h₁, h₂, h₃, -⟩ := hb.bounds
  exact subSize_eq (by rw [raw_m_writeIndex]; omega) h₁

theorem raw_writableBytes (hb : b.Sized) : b.raw.writableBytes = b.writableBytes := by
  obtain ⟨-, h₂, h₃, -⟩ := hb.bounds
  exact subSize_eq (by rw [raw_m_buffer]; omega) h₂

theorem raw_readable (hb : b.Sized) : b.raw.readable = b.content := by
  rw [RawBuffer.readable, raw_readableBytes hb]
  rfl

theorem raw_findCRLF (hb : b.Sized) : b.raw.findCRLF = b.findCRLF := by
  simp only [RawBuffer.findCRLF, raw_readable hb, findCRLF]
  cases h : searchCRLF b.content with
  | none => simp
  | some i =>
    have := searchCRLF_bound h
    rw [Option.getD_some, if_neg (by omega)]

theorem raw_retrieve (hb : b.Sized) {len : ℕ} (h : len ≤ b.readableBytes) :
    b.raw.retrieve len = .returned (b.retrieve len).raw := by
  obtain ⟨h₁, h₂, h₃, -⟩ := hb.bounds
  simp only [RawBuffer.retrieve, raw_readableBytes hb, assert_pos h, Outcome.andThen_returned, retrieve]
  split
  · have hadd : addSize b.m_readIndex len = b.m_readIndex + len :=
      addSize_eq (by unfold readableBytes at h; omega)
    simp only [raw, hadd]
  · rfl

theorem raw_retrieveUntil (hb : b.Sized) {stop : ℕ} (h₁ : b.m_readIndex ≤ stop)
    (h₂ : stop ≤ b.m_writeIndex) :
    b.raw.retrieveUntil stop = .returned (b.retrieveUntil (stop - b.m_readIndex)).raw := by
  have hlen : stop - b.m_readIndex ≤ b.readableBytes := by unfold readableBytes; omega
  unfold RawBuffer.retrieveUntil
  rw [raw_m_readIndex, assert_pos h₁, Outcome.andThen_returned, raw_m_writeIndex, assert_pos h₂,
    Outcome.andThen_returned, raw_m_readIndex]
  exact raw_retrieve hb hlen

theorem raw_copyTo {data : Bytes} (h : data.length ≤ b.writableBytes) :
    b.raw.copyTo b.m_writeIndex data = .returned (b.fill data h).raw := by
  have h₂ := b.write_le_size
  unfold writableBytes at h
  exact if_pos (by rw [raw_m_buffer]; omega)

theorem raw_hasWritten (hb : b.Sized) {len : ℕ} (h : len ≤ b.writableBytes) :
    b.raw.hasWritten len = (b.write (b.unwritten len) (by rw [b.length_unwritten h]; exact h)).raw := by
  obtain ⟨h₁, h₂, h₃, -⟩ := hb.bounds
  have hl := b.length_unwritten h
  have hadd : addSize b.m_writeIndex len = b.m_writeIndex + len :=
    addSize_eq (by unfold writableBytes at h; omega)
  have hsame : b.m_buffer.take b.m_writeIndex ++ b.unwritten len ++
      b.m_buffer.drop (b.m_writeIndex + len) = b.m_buffer := by
    rw [unwritten, ← List.drop_drop, List.append_assoc, List.take_append_drop, List.take_append_drop]
  simp only [RawBuffer.hasWritten, raw, write, hl, hadd, hsame]

theorem raw_fill_hasWritten (hb : b.Sized) {data : Bytes} (h : data.length ≤ b.writableBytes) :
    (b.fill data h).raw.hasWritten data.length = (b.write data h).raw := by
  obtain ⟨h₁, h₂, h₃, -⟩ := hb.bounds
  have hadd : addSize b.m_writeIndex data.length = b.m_writeIndex + data.length :=
    addSize_eq (by unfold writableBytes at h; omega)
  simp only [RawBuffer.hasWritten, raw, fill, write, hadd]

theorem raw_prepend (hb : b.Sized) {data : Bytes} (h : data.length ≤ b.prependableBytes) :
    b.raw.prepend data = .returned (b.prepend data h).raw := by
  obtain ⟨h₁, h₂, h₃, -⟩ := hb.bounds
  have hle : data.length ≤ b.m_readIndex := h
  have hsub : subSize b.m_readIndex data.length = b.m_readIndex - data.length :=
    subSize_eq (by omega) h
  have hadd : b.m_readIndex - data.length + data.length = b.m_readIndex := by omega
  unfold RawBuffer.prepend
  rw [raw_prependableBytes, assert_pos h, Outcome.andThen_returned]
  simp only [raw_m_readIndex, hsub]
  refine (if_pos ?_).trans ?_
  · rw [raw_m_buffer]
    omega
  · simp only [raw, prepend, hadd]

theorem raw_makeSpace_of_grow {len : ℕ}
    (h : b.writableBytes + b.prependableBytes < len + kCheapPrepend) :
    (b.makeSpace len).raw =
      ⟨b.m_buffer ++ List.replicate (b.m_writeIndex + len - b.m_buffer.length) 0, b.m_readIndex,
        b.m_writeIndex⟩ := by
  simp only [makeSpace, if_pos h, raw]

theorem raw_makeSpace_of_move {len : ℕ}
    (h : ¬ b.writableBytes + b.prependableBytes < len + kCheapPrepend) :
    (b.makeSpace len).raw =
      ⟨b.m_buffer.take kCheapPrepend ++ b.content ++ b.m_buffer.drop (kCheapPrepend + b.readableBytes),
        kCheapPrepend, kCheapPrepend + b.readableBytes⟩ := by
  simp only [makeSpace, if_neg h, raw]

/-- `makeSpace` without an overflow: it makes the space, or `resize` throws and nothing has changed. -/
theorem raw_makeSpace (hb : b.Sized) {len : ℕ} (hlt : b.writableBytes < len)
    (h : b.m_writeIndex + len < 2 ^ 64) :
    b.raw.makeSpace len = .returned (b.makeSpace len).raw ∧ (b.makeSpace len).Sized ∨
      b.raw.makeSpace len = .threw b.raw ∧ maxSize < b.m_writeIndex + len ∧
        b.writableBytes + b.prependableBytes < len + kCheapPrepend := by
  obtain ⟨h₁, h₂, h₃, h₄⟩ := hb.bounds
  have hsum : addSize b.writableBytes b.prependableBytes = b.writableBytes + b.prependableBytes :=
    addSize_eq (by unfold writableBytes prependableBytes; omega)
  have hlen : addSize len kCheapPrepend = len + kCheapPrepend := addSize_eq (by unfold kCheapPrepend; omega)
  have hend : addSize b.m_writeIndex len = b.m_writeIndex + len := addSize_eq h
  unfold RawBuffer.makeSpace
  rw [raw_writableBytes hb, raw_prependableBytes, hsum, hlen]
  by_cases hgrow : b.writableBytes + b.prependableBytes < len + kCheapPrepend
  · rw [if_pos hgrow, raw_m_writeIndex, hend, raw_makeSpace_of_grow hgrow]
    by_cases hmax : b.m_writeIndex + len ≤ maxSize
    · refine .inl ⟨(if_pos hmax).trans ?_, hb.makeSpace hlt (.inr hmax)⟩
      rw [raw_m_buffer, List.take_of_length_le (by unfold writableBytes at hlt; omega)]
      rfl
    · exact .inr ⟨if_neg hmax, by omega, hgrow⟩
  · refine .inl ⟨?_, hb.makeSpace hlt (.inl (by omega))⟩
    -- the bytes that are missing at the end are there in front of the content
    have hfront : kCheapPrepend < b.m_readIndex := by unfold prependableBytes at hgrow; omega
    have hfit : kCheapPrepend + b.content.length ≤ b.m_buffer.length := by
      rw [b.length_content]
      unfold readableBytes
      omega
    have hindex : addSize kCheapPrepend b.readableBytes = kCheapPrepend + b.readableBytes :=
      addSize_eq (by rw [b.length_content] at hfit; omega)
    have hback : subSize (kCheapPrepend + b.readableBytes) kCheapPrepend = b.readableBytes := by
      rw [subSize_eq (by rw [b.length_content] at hfit; omega) (by omega)]
      omega
    rw [if_neg hgrow, raw_m_readIndex, assert_pos hfront, Outcome.andThen_returned, raw_readable hb,
      raw_readableBytes hb, raw_makeSpace_of_move hgrow, RawBuffer.copyTo, raw_m_buffer, if_pos hfit,
      Outcome.andThen_returned, hindex, b.length_content]
    exact assert_pos hback.symm

/-- `ensureWritableBytes` without an overflow. -/
theorem raw_ensureWritableBytes (hb : b.Sized) {len : ℕ}
    (h : len ≤ b.writableBytes ∨ b.m_writeIndex + len < 2 ^ 64) :
    b.raw.ensureWritableBytes len = .returned (b.ensureWritableBytes len).raw ∧
        (b.ensureWritableBytes len).Sized ∨
      b.raw.ensureWritableBytes len = .threw b.raw ∧ maxSize < b.m_writeIndex + len ∧
        b.writableBytes + b.prependableBytes < len + kCheapPrepend := by
  have henough := b.writableBytes_ensureWritableBytes len
  unfold RawBuffer.ensureWritableBytes
  unfold ensureWritableBytes at henough ⊢
  rw [raw_writableBytes hb]
  by_cases hlt : b.writableBytes < len
  · rw [if_pos hlt] at henough
    rw [if_pos hlt, if_pos hlt]
    obtain ⟨hmade, hs⟩ | ⟨hthrew, hmax⟩ := raw_makeSpace hb hlt (h.resolve_left (by omega))
    · rw [hmade]
      rw [← raw_writableBytes hs] at henough
      exact .inl ⟨assert_pos henough, hs⟩
    · rw [hthrew]
      exact .inr ⟨rfl, hmax⟩
  · rw [if_neg hlt, if_neg hlt]
    refine .inl ⟨?_, hb⟩
    rw [Outcome.andThen_returned, assert_pos (by rw [raw_writableBytes hb]; omega)]

/-- `append` without an overflow. -/
theorem raw_append (hb : b.Sized) {data : Bytes}
    (h : data.length ≤ b.writableBytes ∨ b.m_writeIndex + data.length < 2 ^ 64) :
    b.raw.append data = .returned (b.append data).raw ∧ (b.append data).Sized ∨
      b.raw.append data = .threw b.raw ∧ maxSize < b.m_writeIndex + data.length ∧
        b.writableBytes + b.prependableBytes < data.length + kCheapPrepend := by
  have henough := b.writableBytes_ensureWritableBytes data.length
  unfold RawBuffer.append
  obtain ⟨hmade, hs⟩ | ⟨hthrew, hmax⟩ := raw_ensureWritableBytes hb h
  · refine .inl ⟨?_, hs.write henough⟩
    rw [hmade, Outcome.andThen_returned, raw_m_writeIndex, raw_copyTo henough, Outcome.andThen_returned,
      raw_fill_hasWritten hs henough]
    rfl
  · rw [hthrew]
    exact .inr ⟨rfl, hmax⟩

theorem readFd_eq_append {data : Bytes} (h : ¬ data.length ≤ b.writableBytes) :
    b.readFd data = (b.write (data.take b.writableBytes) (List.length_take_le _ _)).append
      (data.drop b.writableBytes) := dif_neg h

/-- `readFd` with a result that `readv` can give, when the rest in `extrabuf` finds room. -/
theorem raw_readFd (hb : b.Sized) {data : Bytes} (hmax : data.length ≤ b.writableBytes + RawBuffer.extraSize)
    (h : data.length ≤ b.writableBytes ∨ data.length - b.writableBytes + kCheapPrepend ≤ b.m_readIndex ∨
      b.m_writeIndex + data.length ≤ maxSize) :
    b.raw.readFd (some data) = .returned (b.readFd data).raw ∧ (b.readFd data).Sized := by
  obtain ⟨h₁, h₂, h₃, h₄⟩ := hb.bounds
  have htake : (data.take b.writableBytes).length ≤ b.writableBytes := List.length_take_le _ _
  simp only [RawBuffer.readFd, raw_writableBytes hb, raw_m_writeIndex, raw_copyTo htake,
    Outcome.andThen_returned]
  by_cases hfit : data.length ≤ b.writableBytes
  · have hall : data.take b.writableBytes = data := List.take_of_length_le hfit
    have hadd : addSize b.m_writeIndex data.length = b.m_writeIndex + data.length :=
      addSize_eq (by unfold writableBytes at hfit; omega)
    refine ⟨?_, by unfold readFd; rw [dif_pos hfit]; exact hb.write hfit⟩
    simp only [if_pos hfit, readFd, dif_pos hfit, fill, hall, raw, hadd, write]
  · -- the vector is full: its size is the write index with which `append` starts
    have hlen : (data.take b.writableBytes).length = b.writableBytes := by
      rw [List.length_take]
      omega
    have hfull : ((b.write (data.take b.writableBytes) htake).m_buffer).length =
        b.m_writeIndex + (data.take b.writableBytes).length := by
      simp only [write, List.length_append, List.length_drop, List.length_take, hlen]
      unfold writableBytes
      omega
    have hs := hb.write htake
    have hnone : (b.write (data.take b.writableBytes) htake).writableBytes = 0 :=
      Nat.sub_eq_zero_of_le (Nat.le_of_eq hfull)
    have hend : b.m_writeIndex + (data.take b.writableBytes).length = b.m_buffer.length := by
      rw [hlen]
      unfold writableBytes
      omega
    have hfilled : ({ (b.fill (data.take b.writableBytes) htake).raw with
        m_writeIndex := (b.fill (data.take b.writableBytes) htake).raw.m_buffer.length } : RawBuffer) =
        (b.write (data.take b.writableBytes) htake).raw := by
      have := hfull
      simp only [write] at this
      simp only [raw, fill, write, this]
    rw [if_neg hfit, hfilled, readFd_eq_append hfit]
    have hroom : (b.write (data.take b.writableBytes) htake).m_writeIndex +
        (data.drop b.writableBytes).length < 2 ^ 64 := by
      simp only [write, hend, List.length_drop]
      unfold RawBuffer.extraSize at hmax
      omega
    refine (raw_append hs (.inr hroom)).resolve_right ?_
    rintro ⟨-, hbig, hnear⟩
    rw [hnone] at hnear
    simp only [write, hend, List.length_drop, prependableBytes] at hbig hnear
    unfold writableBytes at h hfit hbig hnear
    omega

end Buffer

end Chatroom.Net
