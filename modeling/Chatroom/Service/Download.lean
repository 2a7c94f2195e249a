import Chatroom.Net.SendLoop
import Chatroom.Service.Server

/-!
# What a download leaves behind

`handleReceiveFile` once more, with each system call on its own: the handler in `Handlers` forgets the descriptor of
the file and the mode of the socket (`run_handleReceiveFile`). It opens the file, takes its user out of
`m_userConnMap` and makes the socket blocking, and not every way out undoes all three.
-/

namespace Chatroom.Service.Download

open Lib Net

/-- What the system calls of one download return; `fstat` the size of the file. -/
structure Answers where
  opened : Bool
  fstat : Option UInt64
  /-- `fcntl(connFd, F_GETFL, 0)` -/
  getFlags : Bool
  /-- `fcntl(connFd, F_SETFL, flags & ~O_NONBLOCK)` -/
  setBlocking : Bool
  sendfile : ℕ → SendfileResult
  /-- `fcntl(connFd, F_SETFL, flags | O_NONBLOCK)` -/
  restore : Bool

structure State where
  /-- `m_userConnMap` -/
  userConnMap : ℤ → Option Conn
  /-- `m_connUserMap` -/
  connUserMap : Conn → Option ℤ
  sent : List (Conn × Json)
  /-- `fileFd` is open -/
  fileOpen : Bool
  /-- `O_NONBLOCK` is set on the socket -/
  nonblocking : Bool

namespace State

variable (s : State) (conn : Conn)

/-- `m_connUserMap[conn]` -/
def userOf : ℤ := (s.connUserMap conn).getD 0

def connUser : State := { s with connUserMap := Function.update s.connUserMap conn (some (s.userOf conn)) }

/-- `m_userConnMap.erase(m_connUserMap[conn])` -/
def eraseUser : State :=
  { s.connUser conn with userConnMap := Function.update s.userConnMap (s.userOf conn) none }

/-- `m_userConnMap[m_connUserMap[conn]] = conn` -/
def setUser : State :=
  { s.connUser conn with userConnMap := Function.update s.userConnMap (s.userOf conn) (some conn) }

def send (fields : List (String × Json)) : State := { s with sent := s.sent ++ [(conn, .obj fields)] }

/-- The file is open and its size known: the user goes, and the metadata is sent. -/
def announce (filename : String) (fileSize : UInt64) : State :=
  ({ s with fileOpen := true }.eraseUser conn).send conn
    [("filename", .str filename), ("filesize", .num fileSize.toNat), ("msgid", .msg .sendFileServer)]

/-- The user comes back, and is told that this was all. -/
def conclude : State :=
  ((s.setUser conn).send conn [("msgid", .msg .sendFileEnd)]).send conn [("msgid", .msg .receiveFileFinish)]

end State

/-- The handler for a message with this filename; none when its loop goes on after that many calls of `::sendfile`. -/
def handleReceiveFile (conn : Conn) (filename : String) (a : Answers) (calls : ℕ) (s : State) : Option State :=
  if a.opened = false then
    some (s.send conn [("msgid", .msg .receiveFileFail)])
  else
    match a.fstat with
    | none => some { s with fileOpen := false }
    | some fileSize =>
      let s := s.announce conn filename fileSize
      if a.getFlags = false then
        some s
      else if a.setBlocking = false then
        some s
      else
        match Server.sendLoop.after a.sendfile (.init fileSize) calls with
        | .inl _ => none
        | .inr .failed => some { s with fileOpen := false, nonblocking := false }
        | .inr .complete =>
          if a.restore = false then
            some { s with fileOpen := false, nonblocking := false }
          else
            some ({ s with fileOpen := false, nonblocking := true }.conclude conn)

/-! ## The loop -/

/-- The bytes that a call of `::sendfile` has sent. -/
def count : SendfileResult → ℕ
  | .sent n => n
  | _ => 0

/-- The bytes that were sent before the `k`-th call, as a `size_t` counts them. -/
def sentBefore (sendfile : ℕ → SendfileResult) : ℕ → UInt64
  | 0 => 0
  | k + 1 => sentBefore sendfile k + .ofNat (count (sendfile k))

/-- Where the loop is, told from the results so far. -/
def AsCounted (sendfile : ℕ → SendfileResult) (fileSize : UInt64) (k : ℕ) : Server.SendLoop ⊕ LoopEnd → Prop
  | .inl t => t.remaining = fileSize - sentBefore sendfile k ∧ (∀ i < k, sendfile i ≠ .failed) ∧
      ∀ j ≤ k, sentBefore sendfile j ≠ fileSize
  | .inr .complete => ∃ j ≤ k, sentBefore sendfile j = fileSize ∧ ∀ i < j, sendfile i ≠ .failed
  | .inr .failed => ∃ i < k, sendfile i = .failed ∧ ∀ j ≤ i, sentBefore sendfile j ≠ fileSize

section Loop

variable {sendfile : ℕ → SendfileResult} {fileSize : UInt64} {k : ℕ}

/-- The condition of the loop, after results that were no errors. -/
theorem asCounted_test {t : Server.SendLoop} (hremaining : t.remaining = fileSize - sentBefore sendfile k)
    (hok : ∀ i < k, sendfile i ≠ .failed) (hmore : ∀ j < k, sentBefore sendfile j ≠ fileSize) :
    AsCounted sendfile fileSize k (Server.sendLoop.test t) := by
  have hzero : t.remaining = 0 ↔ sentBefore sendfile k = fileSize := by
    rw [hremaining]
    constructor
    · intro h
      grind
    · intro h
      rw [h]
      grind
  by_cases hend : sentBefore sendfile k = fileSize
  · have htest : Server.sendLoop.test t = .inr .complete := by
      rw [AskLoop.test_eq_inr]
      simp [Server.sendLoop, hzero.2 hend]
    rw [htest]
    exact ⟨k, le_rfl, hend, hok⟩
  · have htest : Server.sendLoop.test t = .inl t := by
      rw [AskLoop.test_eq_inl]
      have hpos : t.remaining > 0 := UInt64.pos_iff_ne_zero.2 fun h => hend (hzero.1 h)
      simp [Server.sendLoop, hpos]
    rw [htest]
    refine ⟨hremaining, hok, fun j hj => ?_⟩
    rcases Nat.lt_or_eq_of_le hj with hj | rfl
    · exact hmore j hj
    · exact hend

theorem asCounted_after : AsCounted sendfile fileSize k (Server.sendLoop.after sendfile (.init fileSize) k) := by
  induction k with
  | zero => exact asCounted_test (by simp [Server.SendLoop.init, sentBefore]) (by simp) (by simp)
  | succ k ih =>
    rw [AskLoop.after_succ]
    cases hafter : Server.sendLoop.after sendfile (.init fileSize) k with
    | inr b =>
      rw [hafter] at ih
      cases b with
      | complete =>
        obtain ⟨j, hj, h⟩ := ih
        exact ⟨j, by omega, h⟩
      | failed =>
        obtain ⟨i, hi, h⟩ := ih
        exact ⟨i, by omega, h⟩
    | inl t =>
      rw [hafter] at ih
      obtain ⟨hremaining, hok, hmore⟩ := ih
      have hmore' : ∀ j < k + 1, sentBefore sendfile j ≠ fileSize := fun j hj => hmore j (by omega)
      have hok' (hk : sendfile k ≠ .failed) : ∀ i < k + 1, sendfile i ≠ .failed := by
        intro i hi
        rcases Nat.lt_succ_iff_lt_or_eq.1 hi with hi | rfl
        · exact hok i hi
        · exact hk
      cases hk : sendfile k with
      | sent n =>
        refine asCounted_test ?_ (hok' (by simp [hk])) hmore'
        show t.remaining - UInt64.ofNat n = fileSize - sentBefore sendfile (k + 1)
        rw [hremaining, sentBefore, hk, count]
        grind
      | again =>
        refine asCounted_test ?_ (hok' (by simp [hk])) hmore'
        rw [hremaining, sentBefore, hk]
        simp [count]
      | failed => exact ⟨k, Nat.lt_succ_self k, hk, hmore⟩

end Loop

/-! ## What is undone -/

/-- The user is reached on the connection, the file is closed, and the socket does not block. -/
structure AsFound (u : ℤ) (conn : Conn) (s : State) : Prop where
  userConn : s.userConnMap u = some conn
  closed : s.fileOpen = false
  nonblocking : s.nonblocking = true

/-- When the file opens and has a size, no call fails before the whole of it is sent, and the socket can then be made
non-blocking again. -/
def Answers.Untroubled (a : Answers) : Prop :=
  a.opened = true → ∀ fileSize, a.fstat = some fileSize →
    a.getFlags = true ∧ a.setBlocking = true ∧
      (∀ k, a.sendfile k = .failed → ∃ j ≤ k, sentBefore a.sendfile j = fileSize) ∧
      ((∃ j, sentBefore a.sendfile j = fileSize) → a.restore = true)

section Restore

variable {s : State} {u : ℤ} {conn : Conn} {a : Answers}

theorem userOf_of_some (huser : s.connUserMap conn = some u) : s.userOf conn = u := by
  rw [State.userOf, huser]
  rfl

/-- The user is out of the map from the metadata on. -/
theorem announce_userConnMap (huser : s.connUserMap conn = some u) (filename : String) (fileSize : UInt64) :
    (s.announce conn filename fileSize).userConnMap u = none := by
  show Function.update s.userConnMap (s.userOf conn) none u = none
  rw [userOf_of_some huser]
  exact Function.update_self ..

theorem announce_connUserMap (huser : s.connUserMap conn = some u) (filename : String) (fileSize : UInt64) :
    (s.announce conn filename fileSize).connUserMap conn = some u := by
  show Function.update s.connUserMap conn (some (s.userOf conn)) conn = some u
  rw [Function.update_self, userOf_of_some huser]

theorem conclude_userConnMap (huser : s.connUserMap conn = some u) :
    (s.conclude conn).userConnMap u = some conn := by
  show Function.update s.userConnMap (s.userOf conn) (some conn) u = some conn
  rw [userOf_of_some huser]
  exact Function.update_self ..

theorem asFound_of_untroubled (h : AsFound u conn s) (huser : s.connUserMap conn = some u) (ha : a.Untroubled)
    {filename : String} {calls : ℕ} {s' : State} (hreturn : handleReceiveFile conn filename a calls s = some s') :
    AsFound u conn s' := by
  unfold handleReceiveFile at hreturn
  cases hopened : a.opened with
  | false =>
    obtain rfl : _ = s' := Option.some.inj (by simpa [hopened] using hreturn)
    exact ⟨h.userConn, h.closed, h.nonblocking⟩
  | true =>
    cases hfstat : a.fstat with
    | none =>
      obtain rfl : _ = s' := Option.some.inj (by simpa [hopened, hfstat] using hreturn)
      exact ⟨h.userConn, rfl, h.nonblocking⟩
    | some fileSize =>
      obtain ⟨hgetFlags, hsetBlocking, hsendfile, hrestore⟩ := ha hopened fileSize hfstat
      have hcounted : AsCounted a.sendfile fileSize calls _ := asCounted_after
      simp only [hopened, hfstat, hgetFlags, hsetBlocking, Bool.true_eq_false, if_false] at hreturn
      split at hreturn
      case h_1 => cases hreturn
      case h_2 hafter =>
        -- an error before the end
        rw [hafter] at hcounted
        obtain ⟨i, -, hfailed, hmore⟩ := hcounted
        obtain ⟨j, hj, hend⟩ := hsendfile i hfailed
        exact absurd hend (hmore j hj)
      case h_3 hafter =>
        rw [hafter] at hcounted
        obtain ⟨j, -, hend, -⟩ := hcounted
        rw [hrestore ⟨j, hend⟩] at hreturn
        obtain rfl := Option.some.inj hreturn
        exact ⟨conclude_userConnMap (announce_connUserMap huser filename fileSize), rfl, rfl⟩

/-- The other ways out leave the user out of the map. -/
theorem untroubled_of_asFound (huser : s.connUserMap conn = some u) {filename : String}
    (h : ∀ calls s', handleReceiveFile conn filename a calls s = some s' → AsFound u conn s') : a.Untroubled := by
  intro hopened fileSize hfstat
  have herased : ∀ calls s', handleReceiveFile conn filename a calls s = some s' →
      s'.userConnMap ≠ (s.announce conn filename fileSize).userConnMap := by
    intro calls s' hreturn hmap
    have hnone := announce_userConnMap huser filename fileSize
    rw [← hmap, (h calls s' hreturn).userConn] at hnone
    cases hnone
  have hgetFlags : a.getFlags = true := by
    by_contra hfails
    have hreturn : handleReceiveFile conn filename a 0 s = some (s.announce conn filename fileSize) := by
      simp [handleReceiveFile, hopened, hfstat, hfails]
    exact herased _ _ hreturn rfl
  have hsetBlocking : a.setBlocking = true := by
    by_contra hfails
    have hreturn : handleReceiveFile conn filename a 0 s = some (s.announce conn filename fileSize) := by
      simp [handleReceiveFile, hopened, hfstat, hgetFlags, hfails]
    exact herased _ _ hreturn rfl
  have hfailed : ∀ k, Server.sendLoop.after a.sendfile (.init fileSize) k ≠ .inr .failed := by
    intro k hk
    have hreturn : handleReceiveFile conn filename a k s =
        some { s.announce conn filename fileSize with fileOpen := false, nonblocking := false } := by
      simp [handleReceiveFile, hopened, hfstat, hgetFlags, hsetBlocking, hk]
    exact herased _ _ hreturn rfl
  have hcounted : ∀ k, AsCounted a.sendfile fileSize k _ := fun _ => asCounted_after
  refine ⟨hgetFlags, hsetBlocking, fun k hk => ?_, fun ⟨j, hj⟩ => ?_⟩
  · by_contra hmore
    have hmore' : ∀ j ≤ k, sentBefore a.sendfile j ≠ fileSize := fun j hj hend => hmore ⟨j, hj, hend⟩
    cases hafter : Server.sendLoop.after a.sendfile (.init fileSize) (k + 1) with
    | inl t =>
      have hrunning := hcounted (k + 1)
      rw [hafter] at hrunning
      exact hrunning.2.1 k (Nat.lt_succ_self k) hk
    | inr b =>
      cases b with
      | failed => exact hfailed _ hafter
      | complete =>
        have hcomplete := hcounted (k + 1)
        rw [hafter] at hcomplete
        obtain ⟨j, hj, hend, hok⟩ := hcomplete
        rcases Nat.lt_or_eq_of_le hj with hj | rfl
        · exact hmore' j (by omega) hend
        · exact hok k (Nat.lt_succ_self k) hk
  · by_contra hfails
    cases hafter : Server.sendLoop.after a.sendfile (.init fileSize) j with
    | inl t =>
      have hrunning := hcounted j
      rw [hafter] at hrunning
      exact hrunning.2.2 j le_rfl hj
    | inr b =>
      cases b with
      | failed => exact hfailed _ hafter
      | complete =>
        have hreturn : handleReceiveFile conn filename a j s =
            some { s.announce conn filename fileSize with fileOpen := false, nonblocking := false } := by
          simp [handleReceiveFile, hopened, hfstat, hgetFlags, hsetBlocking, hafter, hfails]
        exact herased _ _ hreturn rfl

/-- **A download leaves the session as it found it, whenever it comes to an end, exactly if its system calls do not
get into trouble** after the metadata: each other way out leaves the user online and out of reach. -/
theorem download_restores_iff (h : AsFound u conn s) (huser : s.connUserMap conn = some u) (filename : String)
    (a : Answers) :
    (∀ calls s', handleReceiveFile conn filename a calls s = some s' → AsFound u conn s') ↔ a.Untroubled :=
  ⟨untroubled_of_asFound huser, fun ha _ _ => asFound_of_untroubled h huser ha⟩

end Restore

/-- Bob is on connection 2. -/
def bobOnline : State := ⟨Function.update (fun _ => none) 4 (some 2), Function.update (fun _ => none) 2 (some 4), [],
  false, true⟩

/-- He downloads a file of two bytes, of which the first goes at once. -/
theorem download_restores_iff_bob :
    (∀ calls s', handleReceiveFile 2 "cat.png" ⟨true, some 2, true, true, fun _ => .sent 1, true⟩ calls bobOnline =
      some s' → AsFound 4 2 s') ↔
    Answers.Untroubled ⟨true, some 2, true, true, fun _ => .sent 1, true⟩ :=
  download_restores_iff ⟨rfl, rfl, rfl⟩ rfl "cat.png" _

/-- The disk fails at the first byte: bob stays online, is not in `m_userConnMap`, and his socket blocks; and where
`fcntl` fails before, the file stays open. -/
theorem failed_download_strands :
    AsFound 4 2 bobOnline ∧ bobOnline.connUserMap 2 = some 4 ∧
    (∃ s', handleReceiveFile 2 "cat.png" ⟨true, some 2, true, true, fun _ => .failed, true⟩ 1 bobOnline = some s' ∧
      s'.userConnMap 4 = none ∧ s'.nonblocking = false) ∧
    ∃ s', handleReceiveFile 2 "cat.png" ⟨true, some 2, false, true, fun _ => .failed, true⟩ 0 bobOnline = some s' ∧
      s'.userConnMap 4 = none ∧ s'.fileOpen = true :=
  ⟨⟨rfl, rfl, rfl⟩, rfl, ⟨_, rfl, rfl, rfl⟩, ⟨_, rfl, rfl, rfl⟩⟩

/-! ## The handler of the server -/

/-- The session of a connection whose file is not open yet. -/
def ofWorld (w : World) : State := ⟨w.userConnMap, w.connUserMap, w.sent, false, true⟩

/-- The system answers the handler the same, and its loop ends within that many calls. -/
structure Answers.Agree (env : Environment) (a : Answers) (calls n : ℕ) : Prop where
  opened : (env.os n).ok = a.opened
  fstat : (if (env.os (n + 1)).ok then some (env.os (n + 1)).size else none) = a.fstat.map UInt64.toNat
  getFlags : (env.os (n + 2)).ok = a.getFlags
  setBlocking : (env.os (n + 3)).ok = a.setBlocking
  sendfile : ∀ fileSize, a.fstat = some fileSize →
    Server.sendLoop.after a.sendfile (.init fileSize) calls =
      .inr (if (env.os (n + 4)).ok then .complete else .failed)
  restore : (env.os (n + 5)).ok = a.restore

/-- **The handler that forgets the file and the socket does the same to the maps, and sends the same.** -/
theorem run_handleReceiveFile {env : Environment} {w : World} {conn : Conn} {js : Json} {filename : String}
    (hfile : js.stringField "filename" = .ok filename) (time : String) {a : Answers} {calls : ℕ}
    (ha : a.Agree env calls w.osCalls) :
    ∃ s, handleReceiveFile conn filename a calls (ofWorld w) = some s ∧
      let w' := ((Service.handleReceiveFile conn js time).run (exec env) w).2
      w'.userConnMap = s.userConnMap ∧ w'.connUserMap = s.connUserMap ∧ w'.sent = s.sent := by
  have hfstat := ha.fstat
  have hgetFlags : (env.os (w.osCalls + 1 + 1)).ok = a.getFlags := ha.getFlags
  have hsetBlocking : (env.os (w.osCalls + 1 + 1 + 1)).ok = a.setBlocking := ha.setBlocking
  have hrestore : (env.os (w.osCalls + 1 + 1 + 1 + 1 + 1)).ok = a.restore := ha.restore
  unfold Service.handleReceiveFile handleReceiveFile
  simp only [Program.run_bind, run_read_ok, hfile, Program.run_perform, exec, ha.opened]
  cases hopened : a.opened with
  | false => exact ⟨_, rfl, rfl, rfl, rfl⟩
  | true =>
    simp only [Bool.true_eq_false, if_false, Program.run_bind, Program.run_perform, exec, hfstat]
    cases hsize : a.fstat with
    | none => exact ⟨_, rfl, rfl, rfl, rfl⟩
    | some fileSize =>
      simp only [Option.map_some, Program.run_bind, Program.run_perform, exec, run_connUser, run_send, hgetFlags,
        ha.sendfile fileSize hsize]
      cases a.getFlags with
      | false => exact ⟨_, rfl, rfl, rfl, rfl⟩
      | true =>
        simp only [Bool.true_eq_false, if_false, Program.run_bind, Program.run_perform, exec, hsetBlocking]
        cases a.setBlocking with
        | false => exact ⟨_, rfl, rfl, rfl, rfl⟩
        | true =>
          simp only [Bool.true_eq_false, if_false, Program.run_bind, Program.run_perform, exec]
          have hsent : (env.os (w.osCalls + 1 + 1 + 1 + 1)).ok = (env.os (w.osCalls + 4)).ok := rfl
          rw [hsent]
          cases (env.os (w.osCalls + 4)).ok with
          | false => exact ⟨_, rfl, rfl, rfl, rfl⟩
          | true =>
            simp only [Bool.true_eq_false, if_false, Program.run_bind, Program.run_perform, exec, hrestore]
            cases a.restore with
            | false => exact ⟨_, rfl, rfl, rfl, rfl⟩
            | true =>
              simp only [Bool.true_eq_false, if_false, Program.run_bind, Program.run_perform, exec, run_connUser,
                run_sendMsg]
              exact ⟨_, rfl, rfl, rfl, rfl⟩

end Chatroom.Service.Download
