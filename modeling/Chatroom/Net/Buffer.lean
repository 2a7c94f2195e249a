import Mathlib.Data.List.Basic
import Chatroom.Json

/-!
# `Buffer`

The input and output buffer of a connection (`Buffer.h`, `Buffer.cc`): a vector of bytes with a read and a
write index. The indices carry their bounds, so that no value with `m_readIndex > m_writeIndex` exists.
What a buffer means is `Buffer.content`, the bytes between the two indices; every operation has one lemma
that says what it does to the content, and nothing above this module looks at the indices.
-/

namespace Chatroom.Net

/-! ## The first CR LF of a list -/

/-- `std::search` for the two bytes of `kCRLF`: the position of the first CR that an LF follows. -/
def searchCRLF : Bytes → Option ℕ
  | [] => none
  | [_] => none
  | a :: b :: l => if a = CR ∧ b = LF then some 0 else (searchCRLF (b :: l)).map (· + 1)

/-- No CR of the list is followed by an LF. -/
def NoCRLF (l : Bytes) : Prop := searchCRLF l = none

theorem noCRLF_nil : NoCRLF [] := rfl

theorem noCRLF_singleton (a : Byte) : NoCRLF [a] := rfl

theorem noCRLF_cons_cons {a b : Byte} {l : Bytes} :
    NoCRLF (a :: b :: l) ↔ ¬ (a = CR ∧ b = LF) ∧ NoCRLF (b :: l) := by
  unfold NoCRLF
  rw [searchCRLF]
  by_cases h : a = CR ∧ b = LF <;> simp [h]

theorem NoCRLF.of_append_left {l m : Bytes} (h : NoCRLF (l ++ m)) : NoCRLF l := by
  induction l using searchCRLF.induct with
  | case1 => exact noCRLF_nil
  | case2 a => exact noCRLF_singleton a
  | case3 a b l hab => exact absurd hab (noCRLF_cons_cons.1 h).1
  | case4 a b l hab ih => exact noCRLF_cons_cons.2 ⟨hab, ih (noCRLF_cons_cons.1 h).2⟩

/-- An LF after an unbroken list breaks it only when the list ends with a CR. -/
theorem not_noCRLF_of_getLast {l : Bytes} (h : l.getLast? = some CR) : ¬ NoCRLF (l ++ [LF]) := by
  obtain ⟨l, rfl⟩ := List.getLast?_eq_some_iff.1 h
  intro hl
  induction l with
  | nil => exact absurd (noCRLF_cons_cons.1 hl).1 (by simp)
  | cons a l ih =>
    refine ih (by simp) ?_
    cases l with
    | nil => exact (noCRLF_cons_cons.1 hl).2
    | cons b l => exact (noCRLF_cons_cons.1 hl).2

/-- A list without a CR is unbroken, also with a CR at its end. -/
theorem noCRLF_concat_CR {l : Bytes} (h : CR ∉ l) : NoCRLF (l ++ [CR]) := by
  induction l with
  | nil => exact noCRLF_singleton CR
  | cons a l ih =>
    have ha : a ≠ CR := fun e => h (by simp [e])
    have hl := ih fun e => h (by simp [e])
    cases l with
    | nil => exact noCRLF_cons_cons.2 ⟨fun e => ha e.1, hl⟩
    | cons b l => exact noCRLF_cons_cons.2 ⟨fun e => ha e.1, hl⟩

/-- The search stops at the first CR LF: what stands before it, with the CR, is unbroken. -/
theorem searchCRLF_eq_some {l : Bytes} {i : ℕ} (h : searchCRLF l = some i) :
    l = l.take i ++ CRLF ++ l.drop (i + 2) ∧ NoCRLF (l.take i ++ [CR]) := by
  induction l using searchCRLF.induct generalizing i with
  | case1 => simp [searchCRLF] at h
  | case2 a => simp [searchCRLF] at h
  | case3 a b l hab =>
    rw [searchCRLF, if_pos hab] at h
    obtain rfl : i = 0 := (Option.some.inj h).symm
    obtain ⟨rfl, rfl⟩ := hab
    exact ⟨rfl, noCRLF_singleton CR⟩
  | case4 a b l hab ih =>
    rw [searchCRLF, if_neg hab, Option.map_eq_some_iff] at h
    obtain ⟨j, hj, rfl⟩ := h
    obtain ⟨h₁, h₂⟩ := ih hj
    refine ⟨by simpa using h₁, ?_⟩
    cases j with
    | zero => exact noCRLF_cons_cons.2 ⟨fun e => absurd e.2 (by decide), noCRLF_singleton CR⟩
    | succ j =>
      simp only [List.take_succ_cons, List.cons_append] at h₂ ⊢
      exact noCRLF_cons_cons.2 ⟨hab, h₂⟩

theorem searchCRLF_bound {l : Bytes} {i : ℕ} (h : searchCRLF l = some i) : i + 2 ≤ l.length := by
  have hl := congrArg List.length (searchCRLF_eq_some h).1
  simp only [List.length_append, List.length_take, List.length_drop, List.length_cons,
    List.length_nil] at hl
  omega

/-- What follows the first CR LF does not matter. -/
theorem searchCRLF_append {l : Bytes} {i : ℕ} (h : searchCRLF l = some i) (m : Bytes) :
    searchCRLF (l ++ m) = some i := by
  induction l using searchCRLF.induct generalizing i with
  | case1 => simp [searchCRLF] at h
  | case2 a => simp [searchCRLF] at h
  | case3 a b l hab =>
    rw [searchCRLF, if_pos hab] at h
    rwa [List.cons_append, List.cons_append, searchCRLF, if_pos hab]
  | case4 a b l hab ih =>
    rw [searchCRLF, if_neg hab, Option.map_eq_some_iff] at h
    obtain ⟨j, hj, rfl⟩ := h
    rw [List.cons_append, List.cons_append, searchCRLF, if_neg hab, ← List.cons_append, ih hj]
    rfl

/-! ## The buffer -/

/-- `Buffer::kCheapPrepend` -/
def kCheapPrepend : ℕ := 8

/-- `Buffer::kInitialSize` -/
def kInitialSize : ℕ := 1024

/-- The buffer, with the bounds of its indices. -/
structure Buffer where
  m_buffer : Bytes
  m_readIndex : ℕ
  m_writeIndex : ℕ
  read_le_write : m_readIndex ≤ m_writeIndex
  write_le_size : m_writeIndex ≤ m_buffer.length
  prepend_le_size : kCheapPrepend ≤ m_buffer.length

namespace Buffer

/-- The constructor. -/
def new : Buffer where
  m_buffer := List.replicate (kCheapPrepend + kInitialSize) 0
  m_readIndex := kCheapPrepend
  m_writeIndex := kCheapPrepend
  read_le_write := le_rfl
  write_le_size := by simp
  prepend_le_size := by simp

instance : Inhabited Buffer := ⟨new⟩

variable (b : Buffer)

def readableBytes : ℕ := b.m_writeIndex - b.m_readIndex
def writableBytes : ℕ := b.m_buffer.length - b.m_writeIndex
def prependableBytes : ℕ := b.m_readIndex

/-- The readable bytes: what `peek()` points at, up to `beginWrite()`. -/
def content : Bytes := (b.m_buffer.drop b.m_readIndex).take b.readableBytes

@[simp] theorem length_content : b.content.length = b.readableBytes := by
  have := b.write_le_size
  simp only [content, readableBytes, List.length_take, List.length_drop]
  omega

/-- `findCRLF`: the offset from `peek()`, `none` for the null pointer. -/
def findCRLF : Option ℕ := searchCRLF b.content

def retrieveAll : Buffer where
  m_buffer := b.m_buffer
  m_readIndex := kCheapPrepend
  m_writeIndex := kCheapPrepend
  read_le_write := le_rfl
  write_le_size := b.prepend_le_size
  prepend_le_size := b.prepend_le_size

def retrieve (len : ℕ) : Buffer :=
  if h : len < b.readableBytes then
    { b with
      m_readIndex := b.m_readIndex + len
      read_le_write := by unfold readableBytes at h; omega }
  else b.retrieveAll

/-- `retrieveUntil`, with the offset of the end from `peek()`. -/
def retrieveUntil (stop : ℕ) : Buffer := b.retrieve stop

/-- `makeSpace`: grow the vector, or move the readable bytes to its front. -/
def makeSpace (len : ℕ) : Buffer :=
  if b.writableBytes + b.prependableBytes < len + kCheapPrepend then
    { b with
      m_buffer := b.m_buffer ++ List.replicate (b.m_writeIndex + len - b.m_buffer.length) 0
      write_le_size := by have := b.write_le_size; simp; omega
      prepend_le_size := by have := b.prepend_le_size; simp; omega }
  else
    { m_buffer := b.m_buffer.take kCheapPrepend ++ b.content ++
        b.m_buffer.drop (kCheapPrepend + b.readableBytes)
      m_readIndex := kCheapPrepend
      m_writeIndex := kCheapPrepend + b.readableBytes
      read_le_write := by omega
      write_le_size := by have := b.prepend_le_size; simp; omega
      prepend_le_size := by have := b.prepend_le_size; simp; omega }

def ensureWritableBytes (len : ℕ) : Buffer :=
  if b.writableBytes < len then b.makeSpace len else b

/-- `std::copy` to `beginWrite()` and `hasWritten`: bytes that fit are put at the write index. -/
def write (data : Bytes) (_h : data.length ≤ b.writableBytes) : Buffer where
  m_buffer := b.m_buffer.take b.m_writeIndex ++ data ++ b.m_buffer.drop (b.m_writeIndex + data.length)
  m_readIndex := b.m_readIndex
  m_writeIndex := b.m_writeIndex + data.length
  read_le_write := by have := b.read_le_write; omega
  write_le_size := by
    have := b.write_le_size
    simp only [writableBytes] at _h
    simp only [List.length_append, List.length_take, List.length_drop]
    omega
  prepend_le_size := by
    have := b.prepend_le_size
    have := b.write_le_size
    simp only [writableBytes] at _h
    simp only [List.length_append, List.length_take, List.length_drop]
    omega

theorem writableBytes_makeSpace {len : ℕ} (h : b.writableBytes < len) :
    len ≤ (b.makeSpace len).writableBytes := by
  have h₁ := b.read_le_write
  have h₂ := b.write_le_size
  have h₃ := b.prepend_le_size
  unfold makeSpace
  split <;> simp only [writableBytes, prependableBytes, readableBytes, kCheapPrepend, List.length_append,
    List.length_replicate, List.length_take, List.length_drop, length_content] at * <;> omega

theorem writableBytes_ensureWritableBytes (len : ℕ) :
    len ≤ (b.ensureWritableBytes len).writableBytes := by
  unfold ensureWritableBytes
  split
  · exact b.writableBytes_makeSpace (by assumption)
  · omega

def append (data : Bytes) : Buffer :=
  (b.ensureWritableBytes data.length).write data (b.writableBytes_ensureWritableBytes data.length)

/-- `readFd` when `readv` delivers the bytes `data`: what fits goes into the vector, the rest through
`extrabuf` and `append`. -/
def readFd (data : Bytes) : Buffer :=
  if h : data.length ≤ b.writableBytes then b.write data h
  else
    (b.write (data.take b.writableBytes) (List.length_take_le _ _)).append (data.drop b.writableBytes)

/-! ### What the operations do to the content -/

@[simp] theorem content_new : new.content = [] := by
  simp [content, readableBytes, new]

@[simp] theorem content_retrieveAll : b.retrieveAll.content = [] := by
  simp [content, readableBytes, retrieveAll]

@[simp] theorem content_retrieve (len : ℕ) : (b.retrieve len).content = b.content.drop len := by
  unfold retrieve
  split
  · simp only [content, readableBytes, List.drop_take, List.drop_drop]
    congr 1
    omega
  · rw [content_retrieveAll, List.drop_eq_nil_of_le]
    rw [length_content]
    omega

@[simp] theorem content_retrieveUntil (stop : ℕ) : (b.retrieveUntil stop).content = b.content.drop stop :=
  b.content_retrieve stop

@[simp] theorem content_makeSpace (len : ℕ) : (b.makeSpace len).content = b.content := by
  have h₁ := b.read_le_write
  have h₂ := b.write_le_size
  have h₃ := b.prepend_le_size
  unfold makeSpace
  split
  · simp only [content, readableBytes]
    rw [List.drop_append_of_le_length (by omega), List.take_append_of_le_length (by simp; omega)]
  · have htake : (b.m_buffer.take kCheapPrepend).length = kCheapPrepend := by simp [h₃]
    conv_lhs => unfold content
    simp only [readableBytes, Nat.add_sub_cancel_left]
    rw [List.append_assoc, List.drop_left' htake]
    exact List.take_left' b.length_content

@[simp] theorem content_ensureWritableBytes (len : ℕ) :
    (b.ensureWritableBytes len).content = b.content := by
  unfold ensureWritableBytes
  split <;> simp

theorem length_written : (b.m_buffer.take b.m_writeIndex).length = b.m_writeIndex := by
  simp [b.write_le_size]

theorem drop_written : (b.m_buffer.take b.m_writeIndex).drop b.m_readIndex = b.content := by
  simp only [content, readableBytes, List.drop_take]

@[simp] theorem content_write (data : Bytes) (h : data.length ≤ b.writableBytes) :
    (b.write data h).content = b.content ++ data := by
  have h₁ := b.read_le_write
  have hr : b.m_writeIndex + data.length - b.m_readIndex = b.readableBytes + data.length := by
    unfold readableBytes; omega
  have hl := b.length_written
  conv_lhs => unfold content
  simp only [write, readableBytes]
  rw [hr, List.append_assoc, List.drop_append_of_le_length (by omega), drop_written, ← List.append_assoc,
    List.take_left' (by simp)]

@[simp] theorem content_append (data : Bytes) : (b.append data).content = b.content ++ data := by
  simp [append]

/-- However the bytes were split between the vector and `extrabuf`, they arrive at the end. -/
@[simp] theorem content_readFd (data : Bytes) : (b.readFd data).content = b.content ++ data := by
  unfold readFd
  split
  · simp
  · simp [List.append_assoc]

theorem readableBytes_eq : b.readableBytes = b.content.length := b.length_content.symm

theorem readableBytes_eq_zero : b.readableBytes = 0 ↔ b.content = [] := by
  rw [readableBytes_eq, List.length_eq_zero_iff]

end Buffer

end Chatroom.Net
