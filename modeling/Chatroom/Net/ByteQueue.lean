import Mathlib.Logic.Equiv.Basic
import Chatroom.Net.RawBuffer

/-!
# Buffers as byte queues

What a `Buffer` is for: a string of bytes that is added to at its end (`append`, `hasWritten`, `readFd`) and at
its front (`prepend`) and that loses a prefix (`retrieve` and its siblings). The calls run on the machine's
buffers, any number of them; beside each stands the plain byte string it is to be. `buffers_represent` is the
refinement for every run: it holds as long as no call asks for a length whose sum with the write index passes
`size_t`. There `ensureWritableBytes` does go wrong, and only there (`ensureWritableBytes_iff`).
-/

namespace Chatroom.Net

open Chatroom.Lib

/-! ## The position of a CR LF -/

/-- A CR LF stands at the position. -/
def CRLFAt (q : Bytes) (k : ℕ) : Prop := q[k]? = some CR ∧ q[k + 1]? = some LF

theorem crlfAt_zero {a b : Byte} {l : Bytes} : CRLFAt (a :: b :: l) 0 ↔ a = CR ∧ b = LF := by
  simp [CRLFAt]

theorem crlfAt_succ {a : Byte} {l : Bytes} {k : ℕ} : CRLFAt (a :: l) (k + 1) ↔ CRLFAt l k := by
  simp [CRLFAt]

theorem searchCRLF_spec (l : Bytes) :
    (∀ k, searchCRLF l = some k ↔ CRLFAt l k ∧ ∀ j < k, ¬ CRLFAt l j) ∧
      (searchCRLF l = none ↔ ∀ k, ¬ CRLFAt l k) := by
  induction l using searchCRLF.induct with
  | case1 => simp [searchCRLF, CRLFAt]
  | case2 a => simp [searchCRLF, CRLFAt]
  | case3 a b l hab =>
    have h0 : CRLFAt (a :: b :: l) 0 := crlfAt_zero.2 hab
    rw [searchCRLF, if_pos hab]
    refine ⟨fun k => ⟨?_, ?_⟩, ⟨fun h => absurd h (by simp), fun h => absurd h0 (h 0)⟩⟩
    · rintro ⟨⟩
      exact ⟨h0, fun j hj => absurd hj (Nat.not_lt_zero j)⟩
    · rintro ⟨-, hk⟩
      cases k with
      | zero => rfl
      | succ k => exact absurd h0 (hk 0 k.succ_pos)
  | case4 a b l hab ih =>
    have h0 : ¬ CRLFAt (a :: b :: l) 0 := fun h => hab (crlfAt_zero.1 h)
    rw [searchCRLF, if_neg hab]
    refine ⟨fun k => ?_, ?_⟩
    · cases k with
      | zero => exact ⟨fun h => by simp at h, fun h => absurd h.1 h0⟩
      | succ k =>
        rw [Option.map_eq_some_iff, crlfAt_succ, Nat.forall_lt_succ_left]
        constructor
        · rintro ⟨j, hj, hjk⟩
          obtain rfl : j = k := by omega
          obtain ⟨h₁, h₂⟩ := (ih.1 j).1 hj
          exact ⟨h₁, h0, fun i hi h => h₂ i hi (crlfAt_succ.1 h)⟩
        · rintro ⟨h₁, -, h₂⟩
          exact ⟨k, (ih.1 k).2 ⟨h₁, fun i hi h => h₂ i hi (crlfAt_succ.2 h)⟩, rfl⟩
    · rw [Option.map_eq_none_iff, ih.2]
      constructor
      · rintro h (_ | k)
        · exact h0
        · exact fun hk => h k (crlfAt_succ.1 hk)
      · exact fun h k hk => h (k + 1) (crlfAt_succ.2 hk)

/-! ## Calls -/

/-- What a caller does with one buffer. -/
inductive Call where
  | append (data : Bytes)
  | ensureWritableBytes (len : ℕ)
  /-- the caller copies bytes to `beginWrite()` -/
  | beginWrite (data : Bytes)
  | hasWritten (len : ℕ)
  | prepend (data : Bytes)
  | retrieve (len : ℕ)
  | retrieveUntil (stop : ℕ)
  | retrieveAll
  | retrieveAsString
  | readFd (n : Option Bytes)

namespace Call

def run (r : RawBuffer) : Call → Outcome RawBuffer
  | append data => r.append data
  | ensureWritableBytes len => r.ensureWritableBytes len
  | beginWrite data => r.copyTo r.m_writeIndex data
  | hasWritten len => .returned (r.hasWritten len)
  | prepend data => r.prepend data
  | retrieve len => r.retrieve len
  | retrieveUntil stop => r.retrieveUntil stop
  | retrieveAll => .returned r.retrieveAll
  | retrieveAsString => .returned r.retrieveAsString.2
  | readFd n => r.readFd n

/-- What the call does to the byte string. -/
def effect (r : RawBuffer) (q : Bytes) : Call → Bytes
  | append data => q ++ data
  | ensureWritableBytes _ => q
  | beginWrite _ => q
  | hasWritten len => q ++ (r.m_buffer.drop r.m_writeIndex).take len
  | prepend data => data ++ q
  | retrieve len => q.drop len
  | retrieveUntil stop => q.drop (stop - r.m_readIndex)
  | retrieveAll => []
  | retrieveAsString => []
  | readFd none => q
  | readFd (some data) => q ++ data

/-- The calls a caller may make: lengths are `size_t`, what is taken is readable, what is put has room, and
`readv` delivers at most what its vector holds. -/
def Allowed (r : RawBuffer) : Call → Prop
  | append data => data.length < 2 ^ 64
  | ensureWritableBytes len => len < 2 ^ 64
  | beginWrite data => data.length ≤ r.writableBytes
  | hasWritten len => len ≤ r.writableBytes
  | prepend data => data.length ≤ r.prependableBytes
  | retrieve len => len ≤ r.readableBytes
  | retrieveUntil stop => r.m_readIndex ≤ stop ∧ stop ≤ r.m_writeIndex
  | retrieveAll => True
  | retrieveAsString => True
  | readFd none => True
  | readFd (some data) => data.length ≤
      r.writableBytes + if r.writableBytes < RawBuffer.extraSize then RawBuffer.extraSize else 0

/-- Where the arithmetic of `makeSpace` is right: the requested end of the vector is a `size_t`. `readFd`,
which has taken its bytes from the socket already, must also find room for them. -/
def Fits (r : RawBuffer) : Call → Prop
  | append data => data.length ≤ r.writableBytes ∨ r.m_writeIndex + data.length < 2 ^ 64
  | ensureWritableBytes len => len ≤ r.writableBytes ∨ r.m_writeIndex + len < 2 ^ 64
  | readFd (some data) => data.length ≤ r.writableBytes ∨
      data.length - r.writableBytes + kCheapPrepend ≤ r.m_readIndex ∨
      r.m_writeIndex + data.length ≤ maxSize
  | _ => True

end Call

/-- The buffer is in bounds and its readable bytes are the string. -/
def Represents (r : RawBuffer) (q : Bytes) : Prop := ∃ b : Buffer, b.Sized ∧ b.raw = r ∧ b.content = q

theorem represents_new : Represents RawBuffer.new [] := ⟨Buffer.new, Buffer.sized_new, rfl, Buffer.content_new⟩

/-- **One call**: it returns and does to the buffer what it does to the string, or throws and does nothing. -/
theorem Call.run_represents {r : RawBuffer} {q : Bytes} {c : Call} (h : Represents r q)
    (hallow : c.Allowed r) (hfits : c.Fits r) :
    (∃ r', c.run r = .returned r' ∧ Represents r' (c.effect r q)) ∨ c.run r = .threw r := by
  obtain ⟨b, hb, rfl, rfl⟩ := h
  have hw := b.raw_writableBytes hb
  cases c with
  | append data =>
    simp only [Fits, hw, Buffer.raw_m_writeIndex] at hfits
    obtain ⟨h₁, h₂⟩ | ⟨h₁, -⟩ := Buffer.raw_append hb hfits
    · exact .inl ⟨_, h₁, _, h₂, rfl, b.content_append data⟩
    · exact .inr h₁
  | ensureWritableBytes len =>
    simp only [Fits, hw, Buffer.raw_m_writeIndex] at hfits
    obtain ⟨h₁, h₂⟩ | ⟨h₁, -⟩ := Buffer.raw_ensureWritableBytes hb hfits
    · exact .inl ⟨_, h₁, _, h₂, rfl, b.content_ensureWritableBytes len⟩
    · exact .inr h₁
  | beginWrite data =>
    rw [Allowed, hw] at hallow
    exact .inl ⟨_, Buffer.raw_copyTo hallow, _, hb.fill hallow, rfl, b.content_fill data hallow⟩
  | hasWritten len =>
    rw [Allowed, hw] at hallow
    exact .inl ⟨_, congrArg Outcome.returned (Buffer.raw_hasWritten hb hallow), _, hb.write _, rfl,
      b.content_write _ _⟩
  | prepend data =>
    exact .inl ⟨_, Buffer.raw_prepend hb hallow, _, hb.prepend hallow, rfl, b.content_prepend data hallow⟩
  | retrieve len =>
    rw [Allowed, Buffer.raw_readableBytes hb] at hallow
    exact .inl ⟨_, Buffer.raw_retrieve hb hallow, _, hb.retrieve len, rfl, b.content_retrieve len⟩
  | retrieveUntil stop =>
    exact .inl ⟨_, Buffer.raw_retrieveUntil hb hallow.1 hallow.2, _, hb.retrieve _, rfl,
      b.content_retrieveUntil _⟩
  | retrieveAll => exact .inl ⟨_, rfl, _, hb.retrieveAll, rfl, b.content_retrieveAll⟩
  | retrieveAsString => exact .inl ⟨_, rfl, _, hb.retrieveAll, rfl, b.content_retrieveAll⟩
  | readFd n =>
    cases n with
    | none => exact .inl ⟨_, rfl, b, hb, rfl, rfl⟩
    | some data =>
      simp only [Fits, hw, Buffer.raw_m_readIndex, Buffer.raw_m_writeIndex] at hfits
      have hmax : data.length ≤ b.writableBytes + RawBuffer.extraSize := by
        simp only [Allowed, hw] at hallow
        split at hallow <;> omega
      obtain ⟨h₁, h₂⟩ := Buffer.raw_readFd hb hmax hfits
      exact .inl ⟨_, h₁, _, h₂, rfl, b.content_readFd data⟩

/-! ## Any number of buffers -/

/-- The buffers of the process, the byte strings they are to be, and what has ended the process. -/
structure Buffers where
  memory : ℕ → RawBuffer
  queue : ℕ → Bytes
  failure : Option Failure

/-- A step of the program that uses them. -/
inductive BufferOp where
  | create (i : ℕ)
  | call (i : ℕ) (c : Call)
  | swap (i j : ℕ)

namespace Buffers

def init : Buffers := ⟨fun _ => .new, fun _ => [], none⟩

/-- How a call on the buffer `i` leaves things. -/
def settle (s : Buffers) (i : ℕ) (c : Call) : Outcome RawBuffer → Buffers
  | .returned r => { s with
      memory := Function.update s.memory i r
      queue := Function.update s.queue i (c.effect (s.memory i) (s.queue i)) }
  | .threw r => { s with memory := Function.update s.memory i r }
  | .failed f => { s with failure := some f }

def after (s : Buffers) : BufferOp → Buffers
  | .create i => { s with
      memory := Function.update s.memory i .new
      queue := Function.update s.queue i [] }
  | .call i c => s.settle i c (c.run (s.memory i))
  | .swap i j => { s with
      memory := s.memory ∘ Equiv.swap i j
      queue := s.queue ∘ Equiv.swap i j }

end Buffers

/-- A process that has failed takes no step any more. -/
def buffers : Machine Buffers BufferOp where
  step s op := if s.failure.isNone then some (s.after op) else none

theorem buffers_step {s : Buffers} (h : s.failure = none) (op : BufferOp) :
    buffers.step s op = some (s.after op) := if_pos (by rw [h]; rfl)

def BufferOp.Allowed (s : Buffers) : BufferOp → Prop
  | .call i c => c.Allowed (s.memory i)
  | _ => True

def BufferOp.Fits (s : Buffers) : BufferOp → Prop
  | .call i c => c.Fits (s.memory i)
  | _ => True

/-- No assertion has failed, and every buffer represents its string. -/
def Buffers.Represent (s : Buffers) : Prop := s.failure = none ∧ ∀ i, Represents (s.memory i) (s.queue i)

theorem Buffers.represent_init : init.Represent := ⟨rfl, fun _ => represents_new⟩

theorem Buffers.represent_update {s : Buffers} (h : s.Represent) {i : ℕ} {r : RawBuffer} {q : Bytes}
    (hr : Represents r q) :
    ({ s with memory := Function.update s.memory i r, queue := Function.update s.queue i q }
      : Buffers).Represent := by
  refine ⟨h.1, fun k => ?_⟩
  by_cases hk : k = i
  · subst hk
    simpa only [Function.update_self] using hr
  · simpa only [Function.update_of_ne hk] using h.2 k

theorem Buffers.represent_step {s t : Buffers} {op : BufferOp} (hallow : op.Allowed s) (hfits : op.Fits s)
    (hstep : buffers.step s op = some t) (h : s.Represent) : t.Represent := by
  rw [buffers_step h.1] at hstep
  obtain rfl := Option.some.inj hstep
  cases op with
  | create i => exact represent_update h represents_new
  | call i c =>
    obtain ⟨r, hr, hq⟩ | hthrew := Call.run_represents (h.2 i) hallow hfits
    · rw [after, hr]
      exact represent_update h hq
    · rw [after, hthrew, settle, Function.update_eq_self]
      exact h
  | swap i j => exact ⟨h.1, fun k => h.2 (Equiv.swap i j k)⟩

/-- **A buffer is a byte queue.** In every run whose calls are allowed and ask for no length whose sum with the
write index passes `size_t`, no assertion fails, the indices of every buffer are in bounds, its readable bytes
are the plain string, and `findCRLF` gives the position of the first CR LF of that string. -/
theorem buffers_represent {ops : List BufferOp} {s : Buffers}
    (h : buffers.Run (fun s op => op.Allowed s ∧ op.Fits s) Buffers.init ops s) :
    s.failure = none ∧ ∀ i,
      (s.memory i).m_readIndex ≤ (s.memory i).m_writeIndex ∧
      (s.memory i).m_writeIndex ≤ (s.memory i).m_buffer.length ∧
      8 ≤ (s.memory i).m_buffer.length ∧
      (s.memory i).readable = s.queue i ∧
      (s.memory i).retrieveAsString.1 = s.queue i ∧
      (∀ k, (s.memory i).findCRLF = some k ↔
        CRLFAt (s.queue i) k ∧ ∀ j < k, ¬ CRLFAt (s.queue i) j) ∧
      ((s.memory i).findCRLF = none ↔ ∀ k, ¬ CRLFAt (s.queue i) k) := by
  have hinv : s.Represent :=
    h.invariant (fun _ _ _ hok hst => Buffers.represent_step hok.1 hok.2 hst) Buffers.represent_init
  refine ⟨hinv.1, fun i => ?_⟩
  obtain ⟨b, hb, hmem, hq⟩ := hinv.2 i
  rw [← hmem, ← hq, Buffer.raw_findCRLF hb]
  have hread := Buffer.raw_readable hb
  obtain ⟨hsome, hnone⟩ := searchCRLF_spec b.content
  exact ⟨b.read_le_write, b.write_le_size, b.prepend_le_size, hread, hread, hsome, hnone⟩

/-! ## The overflow -/

/-- What `makeSpace` gives when the requested end of the vector overflows: it shrinks the vector under the
write index, or moves the content in a vector whose size stays. -/
theorem makeSpace_overflow {b : Buffer} (hb : b.Sized) {len : ℕ} (hlen : len < 2 ^ 64)
    (hover : 2 ^ 64 ≤ b.m_writeIndex + len) :
    (∀ r, b.raw.makeSpace len ≠ .threw r) ∧
      ∀ r, b.raw.makeSpace len = .returned r →
        r.m_buffer.length < r.m_writeIndex ∨ r.writableBytes < 2 ^ 63 := by
  obtain ⟨h₁, h₂, h₃, h₄⟩ := hb.bounds
  have hend : addSize b.m_writeIndex len < b.m_writeIndex := by unfold addSize; omega
  have hmax : addSize b.m_writeIndex len ≤ maxSize := by
    have := hb.size_le
    omega
  unfold RawBuffer.makeSpace
  split
  · rw [Buffer.raw_m_writeIndex, RawBuffer.resize, if_pos hmax]
    constructor
    · rintro r ⟨⟩
    rintro r ⟨⟩
    refine .inl (lt_of_le_of_lt ?_ hend)
    simp only [Buffer.raw_m_buffer, List.length_append, List.length_take, List.length_replicate]
    omega
  · constructor
    · intro r h
      obtain h | ⟨a, ha, h⟩ := Outcome.andThen_eq_threw h
      · exact assert_ne_threw h
      · obtain h | ⟨a', -, h⟩ := Outcome.andThen_eq_threw h
        · unfold RawBuffer.copyTo at h
          split at h <;> cases h
        · exact assert_ne_threw h
    · intro r h
      obtain ⟨a, ha, h⟩ := Outcome.andThen_eq_returned h
      obtain ⟨hfront, rfl⟩ := assert_eq_returned ha
      obtain ⟨a', ha', h⟩ := Outcome.andThen_eq_returned h
      obtain ⟨-, rfl⟩ := assert_eq_returned h
      rw [Buffer.raw_m_readIndex] at hfront
      have hback : b.raw.readableBytes + 8 ≤ b.m_buffer.length := by
        rw [Buffer.raw_readableBytes hb]
        unfold Buffer.readableBytes
        unfold kCheapPrepend at hfront
        omega
      have hsize : a'.m_buffer.length = b.m_buffer.length := by
        unfold RawBuffer.copyTo at ha'
        split at ha'
        · rename_i hfit
          obtain rfl := Outcome.returned.inj ha'
          rw [Buffer.raw_m_buffer] at hfit
          simp only [Buffer.raw_m_buffer, List.length_append, List.length_take, List.length_drop]
          omega
        · cases ha'
      have hindex : addSize kCheapPrepend b.raw.readableBytes = b.raw.readableBytes + 8 := by
        rw [addSize_eq (by unfold kCheapPrepend; omega), kCheapPrepend]
        omega
      refine .inr ?_
      simp only [RawBuffer.writableBytes, hsize, hindex, subSize_eq (by omega : b.m_buffer.length < 2 ^ 64) hback]
      omega

/-- With an overflow `ensureWritableBytes` does not return a buffer in bounds, and does not throw. -/
theorem ensureWritableBytes_overflow {b : Buffer} (hb : b.Sized) {len : ℕ} (hlen : len < 2 ^ 64)
    (hlt : b.writableBytes < len) (hover : 2 ^ 64 ≤ b.m_writeIndex + len) :
    (∀ r, b.raw.ensureWritableBytes len ≠ .threw r) ∧
      ∀ r, b.raw.ensureWritableBytes len = .returned r → r.m_buffer.length < r.m_writeIndex := by
  obtain ⟨h₁, h₂, h₃, h₄⟩ := hb.bounds
  obtain ⟨hthrow, hret⟩ := makeSpace_overflow hb hlen hover
  unfold RawBuffer.ensureWritableBytes
  rw [Buffer.raw_writableBytes hb, if_pos hlt]
  constructor
  · intro r h
    obtain h | ⟨a, -, h⟩ := Outcome.andThen_eq_threw h
    · exact hthrow r h
    · exact assert_ne_threw h
  · intro r h
    obtain ⟨a, ha, h⟩ := Outcome.andThen_eq_returned h
    obtain ⟨henough, rfl⟩ := assert_eq_returned h
    exact (hret a ha).resolve_right (by omega)

/-- **Exactly when `ensureWritableBytes` works**: it returns a buffer with the same content, or throws, if and
only if the space is there or the requested end of the vector is a `size_t`. -/
theorem ensureWritableBytes_iff {r : RawBuffer} {q : Bytes} (h : Represents r q) {len : ℕ}
    (hlen : len < 2 ^ 64) :
    ((∃ r', r.ensureWritableBytes len = .returned r' ∧ Represents r' q) ∨
        r.ensureWritableBytes len = .threw r) ↔
      (Call.ensureWritableBytes len).Fits r := by
  refine ⟨fun hmeets => ?_, fun hfits => Call.run_represents (c := .ensureWritableBytes len) h hlen hfits⟩
  obtain ⟨b, hb, rfl, rfl⟩ := h
  by_contra hfits
  simp only [Call.Fits, Buffer.raw_writableBytes hb, Buffer.raw_m_writeIndex, not_or, not_le, not_lt] at hfits
  obtain ⟨hthrow, hret⟩ := ensureWritableBytes_overflow hb hlen hfits.1 hfits.2
  obtain ⟨r', hr', b', hb', rfl, -⟩ | hthrew := hmeets
  · exact absurd b'.write_le_size (Nat.not_le.2 (hret _ hr'))
  · exact hthrow _ hthrew

/-- A length of `2^64 - 1` on a new buffer: the sum in `makeSpace` is 7, and the assertion of its other branch
fails. -/
theorem ensureWritableBytes_max :
    ∃ s, buffers.Run (fun s op => op.Allowed s) Buffers.init [.call 0 (.ensureWritableBytes (2 ^ 64 - 1))] s ∧
      s.failure = some (.assertion "kCheapPrepend < m_readIndex") := by
  have hsize : RawBuffer.new.m_buffer.length = kCheapPrepend + kInitialSize := List.length_replicate
  have hw : RawBuffer.new.writableBytes = 1024 := by
    rw [RawBuffer.writableBytes, hsize]
    decide
  have hfails : RawBuffer.new.ensureWritableBytes (2 ^ 64 - 1) =
      .failed (.assertion "kCheapPrepend < m_readIndex") := by
    rw [RawBuffer.ensureWritableBytes, hw, if_pos (by decide), RawBuffer.makeSpace, hw, if_neg (by decide),
      assert_neg (by decide)]
    rfl
  refine ⟨_, .cons (show 2 ^ 64 - 1 < 2 ^ 64 by decide) (buffers_step rfl _) (.nil _), ?_⟩
  rw [Buffers.after, Call.run, show Buffers.init.memory 0 = .new from rfl, hfails]
  rfl

/-- A line is read from one buffer, which is then swapped with another. -/
theorem buffers_represent_line :
    ∃ s : Buffers, s.failure = none ∧ (s.memory 1).readable = s.queue 1 ∧ s.queue 1 = [LF] := by
  let put : BufferOp := .call 0 (.append [CR, LF])
  let take : BufferOp := .call 0 (.retrieve 1)
  let exchange : BufferOp := .swap 0 1
  have hput : put.Allowed .init ∧ put.Fits .init :=
    ⟨show 2 < 2 ^ 64 by decide, .inr (show 8 + 2 < 2 ^ 64 by decide)⟩
  have h₁ := Buffers.represent_step hput.1 hput.2 (buffers_step rfl _) Buffers.represent_init
  have htake : take.Allowed (Buffers.init.after put) ∧ take.Fits (Buffers.init.after put) :=
    ⟨show 1 ≤ ((Buffers.init.after put).memory 0).readableBytes by decide +kernel, trivial⟩
  have h₂ := Buffers.represent_step htake.1 htake.2 (buffers_step h₁.1 _) h₁
  have hexchange : ∀ s, exchange.Allowed s ∧ exchange.Fits s := fun s => ⟨trivial, trivial⟩
  obtain ⟨hlive, hrep⟩ := buffers_represent
    (.cons hput (buffers_step rfl _) (.cons htake (buffers_step h₁.1 _)
      (.cons (hexchange _) (buffers_step h₂.1 _) (.nil _))))
  exact ⟨_, hlive, (hrep 1).2.2.2.1, by decide +kernel⟩

end Chatroom.Net
