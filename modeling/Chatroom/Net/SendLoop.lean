import Mathlib.Order.Filter.AtTopBot.Basic
import Mathlib.Order.Lattice.Nat
import Chatroom.Lib.AskLoop

/-!
# The loops over `::sendfile`

`Service::handleReceiveFile` counts down what remains of a file, the client's `sendfile` counts up what was sent. Both
go on until the size that `fstat` told them is reached, and neither takes a 0 for the end of the file: one that has
become shorter in the meantime is asked for again and again.
-/

namespace Chatroom.Net

open Lib Filter

/-- What `::sendfile` returns. -/
inductive SendfileResult where
  | sent (n : ℕ)
  /-- `EAGAIN` or `EWOULDBLOCK` -/
  | again
  /-- another error -/
  | failed
  deriving DecidableEq

/-- The contract of `::sendfile` for a file of this size, at this offset, with this count. -/
def SendfileResult.Possible (size offset count : ℕ) : SendfileResult → Prop
  | .sent n => n ≤ count ∧ (n = 0 ↔ size ≤ offset)
  | _ => True

/-- How a loop over `::sendfile` is left. -/
inductive LoopEnd where
  | complete
  | failed
  deriving DecidableEq

/-! ## What the loops are for -/

/-- A file is sent from the front, up to `total` bytes; the state is how many were sent. -/
def copyLoop (total : ℕ) : AskLoop ℕ SendfileResult LoopEnd where
  exit offset := if offset < total then none else some .complete
  body offset
    | .sent n => .inl (offset + n)
    | .again => .inl offset
    | .failed => .inr .failed

/-- The result is possible for the size that the file has at this call. -/
def copyPossible (size : ℕ → ℕ) (total k offset : ℕ) : SendfileResult → Prop :=
  SendfileResult.Possible (size k) offset (total - offset)

/-- `EAGAIN` comes finitely often. -/
def Fair (answers : ℕ → SendfileResult) : Prop := ∀ᶠ k in atTop, answers k ≠ .again

section Copy

variable {size : ℕ → ℕ} {total : ℕ} {answers : ℕ → SendfileResult}

/-- What a round does to the offset. -/
theorem copyLoop_step {k offset offset' : ℕ} (h : (copyLoop total).after answers 0 k = .inl offset)
    (h' : (copyLoop total).after answers 0 (k + 1) = .inl offset') :
    (∃ n, answers k = .sent n ∧ offset' = offset + n) ∨ (answers k = .again ∧ offset' = offset) := by
  rw [AskLoop.after_succ, h] at h'
  obtain ⟨_, hoffset, hbody, -⟩ := AskLoop.round_eq_inl.1 h'
  obtain rfl := Sum.inl.inj hoffset
  cases hanswer : answers k with
  | sent n =>
    rw [hanswer] at hbody
    exact .inl ⟨n, rfl, (Sum.inl.inj hbody).symm⟩
  | again =>
    rw [hanswer] at hbody
    exact .inr ⟨rfl, (Sum.inl.inj hbody).symm⟩
  | failed =>
    rw [hanswer] at hbody
    cases hbody

theorem lt_of_copyLoop {k offset : ℕ} (h : (copyLoop total).after answers 0 k = .inl offset) : offset < total := by
  have hexit := AskLoop.exit_of_after h
  by_contra hge
  simp [copyLoop, hge] at hexit

/-- The loop ends if the file is as long as announced again and again. -/
theorem copyLoop_ends (hlong : ∃ᶠ k in atTop, total ≤ size k)
    (hconf : (copyLoop total).Conforms (copyPossible size total) answers 0) (hfair : Fair answers) :
    (copyLoop total).Ends answers 0 := by
  have hlt : ∀ k offset, (copyLoop total).after answers 0 k = .inl offset → offset < total :=
    fun k offset => lt_of_copyLoop
  refine AskLoop.ends_of_variant (fun offset => total - offset) (fun k offset offset' h h' => ?_) ?_
  · rcases copyLoop_step h h' with ⟨n, -, rfl⟩ | ⟨-, rfl⟩
    · omega
    · omega
  · refine (hlong.and_eventually hfair).mono ?_
    rintro k ⟨hsize, hasked⟩ offset offset' h h'
    have hpossible := hconf k offset h
    rcases copyLoop_step h h' with ⟨n, hn, rfl⟩ | ⟨hagain, -⟩
    · rw [hn] at hpossible
      have hoffset := hlt k offset h
      have hprogress : n ≠ 0 := fun hzero => by
        have hle := hpossible.2.1 hzero
        omega
      omega
    · exact absurd hagain hasked

/-- The longest that the file has been from call `start` on. -/
def longest (size : ℕ → ℕ) (start : ℕ) : ℕ → ℕ
  | 0 => 0
  | k + 1 => if k < start then 0 else max (longest size start k) (size k)

/-- Nothing is accepted until the file is shorter for good, and then what there is of it. -/
def starving (size : ℕ → ℕ) (start k : ℕ) : SendfileResult :=
  if k < start then .again else .sent (size k - longest size start k)

theorem longest_lt {start : ℕ} (hpos : 0 < total) (hshort : ∀ k, start ≤ k → size k < total) (k : ℕ) :
    longest size start k < total := by
  induction k with
  | zero => exact hpos
  | succ k ih =>
    rw [longest]
    split
    case isTrue => exact hpos
    case isFalse hk =>
      have hsize := hshort k (by omega)
      omega

theorem longest_of_le {start k : ℕ} (hk : k ≤ start) : longest size start k = 0 := by
  cases k with
  | zero => rfl
  | succ k => rw [longest, if_pos (by omega)]

theorem after_starving {start : ℕ} (hpos : 0 < total) (hshort : ∀ k, start ≤ k → size k < total) (k : ℕ) :
    (copyLoop total).after (starving size start) 0 k = .inl (longest size start k) := by
  induction k with
  | zero =>
    rw [AskLoop.after, AskLoop.test_eq_inl]
    exact ⟨rfl, if_pos hpos⟩
  | succ k ih =>
    have hlt := longest_lt hpos hshort (k + 1)
    rw [AskLoop.after_succ, AskLoop.round_eq_inl]
    refine ⟨_, ih, ?_, if_pos hlt⟩
    by_cases hk : k < start
    · rw [starving, if_pos hk, longest_of_le (by omega), longest_of_le (by omega)]
      rfl
    · rw [starving, if_neg hk, longest, if_neg hk]
      refine congrArg Sum.inl ?_
      omega

/-- Otherwise it can go on for ever. -/
theorem not_terminates_copyLoop (hpos : 0 < total) (hshort : ¬ ∃ᶠ k in atTop, total ≤ size k) :
    ¬ (copyLoop total).Terminates (copyPossible size total) Fair 0 := by
  obtain ⟨start, hstart⟩ := eventually_atTop.1 (not_frequently.1 hshort)
  replace hstart : ∀ k, start ≤ k → size k < total := fun k hk => not_le.1 (hstart k hk)
  intro hterm
  have hconf : (copyLoop total).Conforms (copyPossible size total) (starving size start) 0 := by
    intro k offset h
    rw [after_starving hpos hstart] at h
    obtain rfl := Sum.inl.inj h
    unfold copyPossible starving
    split
    case isTrue => trivial
    case isFalse hk =>
      have hsize := hstart k (by omega)
      exact ⟨by omega, by omega⟩
  have hfair : Fair (starving size start) := by
    refine eventually_atTop.2 ⟨start, fun k hk => ?_⟩
    rw [starving, if_neg (by omega)]
    simp
  obtain ⟨k, b, hk⟩ := hterm _ hconf hfair
  rw [after_starving hpos hstart] at hk
  cases hk

theorem copyLoop_terminates_iff :
    (copyLoop total).Terminates (copyPossible size total) Fair 0 ↔ total = 0 ∨ ∃ᶠ k in atTop, total ≤ size k := by
  constructor
  · intro hterm
    by_contra hnot
    rw [not_or] at hnot
    exact not_terminates_copyLoop (by omega) hnot.2 hterm
  · rintro (rfl | hlong) answers hconf hfair
    · exact ⟨0, .complete, rfl⟩
    · exact copyLoop_ends hlong hconf hfair

end Copy

/-! ## `Service::handleReceiveFile` -/

namespace Server

structure SendLoop where
  offset : ℕ
  remaining : UInt64

/-- `while (remaining > 0)` -/
def sendLoop : AskLoop SendLoop SendfileResult LoopEnd where
  exit s := if s.remaining > 0 then none else some .complete
  body s
    | .sent n => .inl ⟨s.offset + n, s.remaining - .ofNat n⟩
    | .again => .inl s
    | .failed => .inr .failed

/-- `off_t offset = 0; size_t remaining = fileSize;` -/
def SendLoop.init (fileSize : UInt64) : SendLoop := ⟨0, fileSize⟩

/-- `sendfile(connFd, fileFd, &offset, remaining)` -/
def sendPossible (size : ℕ → ℕ) (k : ℕ) (s : SendLoop) : SendfileResult → Prop :=
  SendfileResult.Possible (size k) s.offset s.remaining.toNat

end Server

/-! ## The client's `sendfile` -/

namespace Client

structure SendLoop where
  offset : ℕ
  totalSent : UInt64

/-- `while (totalSent < fileSize)` -/
def sendLoop (fileSize : UInt64) : AskLoop SendLoop SendfileResult LoopEnd where
  exit s := if s.totalSent < fileSize then none else some .complete
  body s
    | .sent n => .inl ⟨s.offset + n, s.totalSent + .ofNat n⟩
    | .again => .inl s
    | .failed => .inr .failed

/-- `off_t offset = 0; size_t totalSent = 0;` -/
def SendLoop.init : SendLoop := ⟨0, 0⟩

/-- `sendfile(socket_fd, file_fd, &offset, fileSize - totalSent)` -/
def sendPossible (fileSize : UInt64) (size : ℕ → ℕ) (k : ℕ) (s : SendLoop) : SendfileResult → Prop :=
  SendfileResult.Possible (size k) s.offset (fileSize - s.totalSent).toNat

end Client

/-! ## Both send a file from the front -/

section Simulates

variable (fileSize : UInt64) (size : ℕ → ℕ)

/-- A count that is not above a `size_t`. -/
theorem toNat_ofNat_of_le {c : UInt64} {n : ℕ} (h : n ≤ c.toNat) : (UInt64.ofNat n).toNat = n := by
  have hlt : n < 2 ^ 64 := h.trans_lt c.toNat_lt
  rw [UInt64.toNat_ofNat', Nat.mod_eq_of_lt hlt]

theorem server_simulates : AskLoop.Simulates Server.sendLoop (copyLoop fileSize.toNat)
    (fun s offset => s.offset = offset ∧ s.remaining.toNat + offset = fileSize.toNat)
    (Server.sendPossible size) (copyPossible size fileSize.toNat) := by
  constructor
  · rintro s offset ⟨-, hsum⟩
    have hiff : s.remaining > 0 ↔ offset < fileSize.toNat := by
      rw [gt_iff_lt, UInt64.lt_iff_toNat_lt, UInt64.toNat_zero]
      omega
    simp only [Server.sendLoop, copyLoop, hiff]
  · rintro k s offset a ⟨rfl, hsum⟩
    have hcount : s.remaining.toNat = fileSize.toNat - s.offset := by omega
    rw [Server.sendPossible, copyPossible, hcount]
  · rintro k s offset a ⟨rfl, hsum⟩ - hpossible
    cases a with
    | again => exact .inl ⟨rfl, hsum⟩
    | failed => exact .inr rfl
    | sent n =>
      have hn : n ≤ s.remaining.toNat := hpossible.1
      have hof : (UInt64.ofNat n).toNat = n := toNat_ofNat_of_le hn
      have hle : UInt64.ofNat n ≤ s.remaining := by rw [UInt64.le_iff_toNat_le, hof]; exact hn
      refine .inl ⟨rfl, ?_⟩
      show (s.remaining - UInt64.ofNat n).toNat + (s.offset + n) = fileSize.toNat
      rw [UInt64.toNat_sub_of_le _ _ hle, hof]
      omega

theorem client_simulates : AskLoop.Simulates (Client.sendLoop fileSize) (copyLoop fileSize.toNat)
    (fun s offset => s.offset = offset ∧ s.totalSent.toNat = offset ∧ offset ≤ fileSize.toNat)
    (Client.sendPossible fileSize size) (copyPossible size fileSize.toNat) := by
  constructor
  · rintro s offset ⟨-, htotal, -⟩
    have hiff : s.totalSent < fileSize ↔ offset < fileSize.toNat := by rw [UInt64.lt_iff_toNat_lt, htotal]
    simp only [Client.sendLoop, copyLoop, hiff]
  · rintro k s offset a ⟨rfl, htotal, hle⟩
    have hsub : s.totalSent ≤ fileSize := by rw [UInt64.le_iff_toNat_le, htotal]; exact hle
    rw [Client.sendPossible, copyPossible, UInt64.toNat_sub_of_le _ _ hsub, htotal]
  · rintro k s offset a ⟨rfl, htotal, hle⟩ - hpossible
    cases a with
    | again => exact .inl ⟨rfl, htotal, hle⟩
    | failed => exact .inr rfl
    | sent n =>
      have hsub : s.totalSent ≤ fileSize := by rw [UInt64.le_iff_toNat_le, htotal]; exact hle
      have hn : n ≤ fileSize.toNat - s.offset := by
        have hcount : n ≤ (fileSize - s.totalSent).toNat := hpossible.1
        rwa [UInt64.toNat_sub_of_le _ _ hsub, htotal] at hcount
      have hsize := fileSize.toNat_lt
      have hof : (UInt64.ofNat n).toNat = n := toNat_ofNat_of_le (c := fileSize) (by omega)
      have hsum : (s.totalSent + UInt64.ofNat n).toNat = s.offset + n := by
        rw [UInt64.toNat_add, hof, htotal]
        exact Nat.mod_eq_of_lt (by omega)
      exact .inl ⟨rfl, hsum, by omega⟩

/-- **A transfer comes to an end, whatever `::sendfile` answers, exactly when nothing is to be sent or the file is as
long as announced again and again**: never when it is cut below that for good. -/
theorem transfer_ends_iff :
    (Server.sendLoop.Terminates (Server.sendPossible size) Fair (.init fileSize) ↔
      fileSize = 0 ∨ ∃ᶠ k in atTop, fileSize.toNat ≤ size k) ∧
    ((Client.sendLoop fileSize).Terminates (Client.sendPossible fileSize size) Fair .init ↔
      fileSize = 0 ∨ ∃ᶠ k in atTop, fileSize.toNat ≤ size k) := by
  have hzero : fileSize.toNat = 0 ↔ fileSize = 0 := by rw [← UInt64.toNat_inj, UInt64.toNat_zero]
  rw [← hzero, ← copyLoop_terminates_iff]
  constructor
  · exact AskLoop.terminates_iff_of_simulates (server_simulates fileSize size) ⟨rfl, rfl⟩
  · exact AskLoop.terminates_iff_of_simulates (client_simulates fileSize size) ⟨rfl, rfl, Nat.zero_le _⟩

end Simulates

/-- A file of one byte is emptied before it is sent: 0 is returned for ever, and both loops go on. -/
theorem emptied_file_spins :
    Server.sendLoop.Conforms (Server.sendPossible fun _ => 0) (fun _ => .sent 0) (.init 1) ∧
    ¬ Server.sendLoop.Ends (fun _ => .sent 0) (.init 1) ∧
    (Client.sendLoop 1).Conforms (Client.sendPossible 1 fun _ => 0) (fun _ => .sent 0) .init ∧
    ¬ (Client.sendLoop 1).Ends (fun _ => .sent 0) .init ∧
    Fair fun _ => .sent 0 := by
  have hserver : ∀ k, Server.sendLoop.after (fun _ => .sent 0) (.init 1) k = .inl ⟨0, 1⟩ := by
    intro k
    induction k with
    | zero => rfl
    | succ k ih =>
      rw [AskLoop.after_succ, ih]
      rfl
  have hclient : ∀ k, (Client.sendLoop 1).after (fun _ => .sent 0) .init k = .inl ⟨0, 0⟩ := by
    intro k
    induction k with
    | zero => rfl
    | succ k ih =>
      rw [AskLoop.after_succ, ih]
      rfl
  refine ⟨fun k t h => ?_, ?_, fun k t h => ?_, ?_, .of_forall fun k => by simp⟩
  · rw [hserver] at h
    obtain rfl := Sum.inl.inj h
    exact ⟨by decide, by simp⟩
  · exact AskLoop.not_ends_iff.2 fun k => ⟨_, hserver k⟩
  · rw [hclient] at h
    obtain rfl := Sum.inl.inj h
    exact ⟨by decide, by simp⟩
  · exact AskLoop.not_ends_iff.2 fun k => ⟨_, hclient k⟩

end Chatroom.Net
