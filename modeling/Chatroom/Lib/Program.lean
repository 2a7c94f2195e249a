import Mathlib.Data.List.Basic
import Mathlib.Control.Basic
import Mathlib.Tactic.Common

/-!
# Programs of atomic commands

A program calls commands one at a time and goes on with their answers, returns, or throws. What a command
does to the state is given by an interpreter; a program can then be run to its end (`run`), or be stopped
before any of its commands, which is what interleavings are made of.

`Safe P Q` is the weakest precondition that looks at the commands only: every command that the program
calls satisfies `P`, as long as the answers satisfy `Q`. It is proved once for a program and holds however
the program is interleaved with others.
-/

namespace Chatroom.Lib

/-- A program with commands `C`, whose answers are typed by `A`, and exceptions `ε`. -/
inductive Program {C : Type} (A : C → Type) (ε α : Type) where
  | ret (a : α)
  | throw (e : ε)
  | call (c : C) (next : A c → Program A ε α)

namespace Program

variable {C : Type} {A : C → Type} {ε α β γ : Type}

protected def bind : Program A ε α → (α → Program A ε β) → Program A ε β
  | ret a, f => f a
  | throw e, _ => throw e
  | call c next, f => call c fun a => (next a).bind f

instance : Monad (Program A ε) where
  pure := ret
  bind := Program.bind

/-- A single command. -/
def perform (c : C) : Program A ε (A c) := call c ret

/-- A computation without commands. -/
def ofExcept : Except ε α → Program A ε α
  | .ok a => ret a
  | .error e => throw e

@[simp] theorem pure_eq (a : α) : (pure a : Program A ε α) = ret a := rfl

@[simp] theorem ret_bind (a : α) (f : α → Program A ε β) : ret a >>= f = f a := rfl

@[simp] theorem throw_bind (e : ε) (f : α → Program A ε β) : throw e >>= f = throw e := rfl

@[simp] theorem call_bind (c : C) (next : A c → Program A ε α) (f : α → Program A ε β) :
    call c next >>= f = call c fun a => next a >>= f := rfl

theorem bind_assoc' (p : Program A ε α) (f : α → Program A ε β) (g : β → Program A ε γ) :
    p >>= f >>= g = p >>= fun a => f a >>= g := by
  induction p with
  | ret a => rfl
  | throw e => rfl
  | call c next ih => exact congrArg (call c) (funext ih)

theorem bind_ret (p : Program A ε α) : p >>= ret = p := by
  induction p with
  | ret a => rfl
  | throw e => rfl
  | call c next ih => exact congrArg (call c) (funext ih)

instance : LawfulMonad (Program A ε) :=
  LawfulMonad.mk' (Program A ε) (fun p => bind_ret p) (fun _ _ => rfl) bind_assoc'

/-! ## Runs to the end -/

variable {σ : Type} (exec : (c : C) → σ → A c × σ)

/-- The result of a program and the state it leaves. -/
def run : Program A ε α → σ → Except ε α × σ
  | ret a, s => (.ok a, s)
  | throw e, s => (.error e, s)
  | call c next, s => (next (exec c s).1).run (exec c s).2

@[simp] theorem run_ret (a : α) (s : σ) : (ret a : Program A ε α).run exec s = (.ok a, s) := rfl

@[simp] theorem run_throw (e : ε) (s : σ) : (throw e : Program A ε α).run exec s = (.error e, s) := rfl

@[simp] theorem run_call (c : C) (next : A c → Program A ε α) (s : σ) :
    (call c next).run exec s = (next (exec c s).1).run exec (exec c s).2 := rfl

@[simp] theorem run_perform (c : C) (s : σ) :
    (perform c : Program A ε (A c)).run exec s = (.ok (exec c s).1, (exec c s).2) := rfl

theorem run_bind (p : Program A ε α) (f : α → Program A ε β) (s : σ) :
    (p >>= f).run exec s =
      match p.run exec s with
      | (.ok a, t) => (f a).run exec t
      | (.error e, t) => (.error e, t) := by
  induction p generalizing s with
  | ret a => rfl
  | throw e => rfl
  | call c next ih => exact ih _ _

theorem run_bind_of_ok {p : Program A ε α} {s : σ} {a : α} (h : (p.run exec s).1 = .ok a)
    (f : α → Program A ε β) : (p >>= f).run exec s = (f a).run exec (p.run exec s).2 := by
  rw [run_bind]
  split
  case h_1 b t heq =>
    rw [heq] at h
    rw [heq, ← Except.ok.inj h]
  case h_2 e t heq =>
    rw [heq] at h
    cases h

theorem run_forM_ok {l : List α} {body : α → Program A ε PUnit}
    (h : ∀ a ∈ l, ∀ s, ((body a).run exec s).1 = .ok ⟨⟩) (s : σ) : ((forM l body).run exec s).1 = .ok ⟨⟩ := by
  induction l generalizing s with
  | nil => rfl
  | cons a l ih =>
    rw [List.forM_cons, run_bind_of_ok exec (h a (by simp) s)]
    exact ih (fun b hb => h b (by simp [hb])) _

/-- What every round of a loop keeps, the loop keeps, also when a round throws. -/
theorem run_forM {l : List α} {body : α → Program A ε PUnit} {I : σ → Prop}
    (h : ∀ a ∈ l, ∀ s, I s → I ((body a).run exec s).2) {s : σ} (hs : I s) :
    I ((forM l body).run exec s).2 := by
  induction l generalizing s with
  | nil => exact hs
  | cons a l ih =>
    have ha := h a (by simp) s hs
    rw [List.forM_cons, run_bind]
    split
    case h_1 b t heq =>
      rw [heq] at ha
      exact ih (fun b hb => h b (by simp [hb])) ha
    case h_2 e t heq =>
      rw [heq] at ha
      exact ha

/-! ## What a program can call -/

/-- Every command called satisfies `P` when every answer satisfies `Q`, and what is returned satisfies
`post`. -/
def Safe (P : C → Prop) (Q : (c : C) → A c → Prop) : Program A ε α → (α → Prop) → Prop
  | ret a, post => post a
  | throw _, _ => True
  | call c next, post => P c ∧ ∀ a, Q c a → (next a).Safe P Q post

variable {P P' : C → Prop} {Q Q' : (c : C) → A c → Prop}

@[simp] theorem safe_ret {a : α} {post : α → Prop} : (ret a : Program A ε α).Safe P Q post ↔ post a := .rfl

@[simp] theorem safe_throw {e : ε} {post : α → Prop} : (throw e : Program A ε α).Safe P Q post := trivial

@[simp] theorem safe_call {c : C} {next : A c → Program A ε α} {post : α → Prop} :
    (call c next).Safe P Q post ↔ P c ∧ ∀ a, Q c a → (next a).Safe P Q post := .rfl

@[simp] theorem safe_perform {c : C} {post : A c → Prop} :
    (perform c : Program A ε (A c)).Safe P Q post ↔ P c ∧ ∀ a, Q c a → post a := .rfl

@[simp] theorem safe_bind {p : Program A ε α} {f : α → Program A ε β} {post : β → Prop} :
    (p >>= f).Safe P Q post ↔ p.Safe P Q fun a => (f a).Safe P Q post := by
  induction p with
  | ret a => rfl
  | throw e => rfl
  | call c next ih => exact and_congr_right fun _ => forall_congr' fun a => imp_congr_right fun _ => ih a

@[simp] theorem safe_map {p : Program A ε α} {f : α → β} {post : β → Prop} :
    (f <$> p).Safe P Q post ↔ p.Safe P Q fun a => post (f a) := by
  rw [map_eq_pure_bind, safe_bind]
  rfl

theorem safe_ofExcept {x : Except ε α} {post : α → Prop} :
    (ofExcept x : Program A ε α).Safe P Q post ↔ ∀ a, x = .ok a → post a := by
  cases x with
  | ok a => exact ⟨fun h b hb => Except.ok.inj hb ▸ h, fun h => h a rfl⟩
  | error e => exact ⟨fun _ _ h => absurd h (by simp), fun _ => trivial⟩

theorem Safe.mono {p : Program A ε α} {post post' : α → Prop} (h : p.Safe P Q post) (hP : ∀ c, P c → P' c)
    (hQ : ∀ c a, Q' c a → Q c a) (hpost : ∀ a, post a → post' a) : p.Safe P' Q' post' := by
  induction p with
  | ret a => exact hpost a h
  | throw e => trivial
  | call c next ih =>
    obtain ⟨hc, hnext⟩ := h
    exact ⟨hP c hc, fun a ha => ih a (hnext a (hQ c a ha))⟩

theorem Safe.imp {p : Program A ε α} {post post' : α → Prop} (h : p.Safe P Q post)
    (hpost : ∀ a, post a → post' a) : p.Safe P Q post' :=
  h.mono (fun _ hc => hc) (fun _ _ ha => ha) hpost

@[simp] theorem safe_ite {b : Prop} [Decidable b] {p q : Program A ε α} {post : α → Prop} :
    (if b then p else q).Safe P Q post ↔ (b → p.Safe P Q post) ∧ (¬b → q.Safe P Q post) := by
  by_cases h : b <;> simp [h]

theorem safe_mapM {l : List α} {f : α → Program A ε β} {post : List β → Prop}
    (hf : ∀ a ∈ l, (f a).Safe P Q fun _ => True) (hpost : ∀ bs, post bs) : (l.mapM f).Safe P Q post := by
  induction l generalizing post with
  | nil => exact hpost []
  | cons a l ih =>
    rw [List.mapM_cons, safe_bind]
    refine (hf a (by simp)).imp fun b _ => ?_
    rw [safe_bind]
    exact ih (fun c hc => hf c (by simp [hc])) fun bs => hpost (b :: bs)

/-- Every program is safe when nothing is asked. -/
theorem safe_true (p : Program A ε α) : p.Safe (fun _ => True) (fun _ _ => True) fun _ => True := by
  induction p with
  | ret a => trivial
  | throw e => trivial
  | call c next ih => exact ⟨trivial, fun a _ => ih a⟩

/-- A loop whose body is safe is safe. -/
theorem safe_forM {l : List α} {body : α → Program A ε PUnit} {post : PUnit → Prop}
    (hbody : ∀ a ∈ l, (body a).Safe P Q fun _ => True) (hpost : post ⟨⟩) :
    (forM l body).Safe P Q post := by
  induction l with
  | nil => exact hpost
  | cons a l ih =>
    rw [List.forM_cons, safe_bind]
    exact (hbody a (by simp)).imp fun _ _ => ih fun b hb => hbody b (by simp [hb])

/-- The commands of a run, in order. -/
def trace : Program A ε α → σ → List C
  | ret _, _ => []
  | throw _, _ => []
  | call c next, s => c :: (next (exec c s).1).trace (exec c s).2

/-- **What is safe keeps an invariant**, when every command that satisfies `P` keeps it and answers according to
`Q`. Of the commands of the run, `T` is known as well. -/
theorem Safe.run_of_trace {p : Program A ε α} {post : α → Prop} (h : p.Safe P Q post) {I : σ → Prop} {T : C → Prop}
    (hexec : ∀ c s, P c → T c → I s → Q c (exec c s).1 ∧ I (exec c s).2) {s : σ}
    (htrace : ∀ c ∈ p.trace exec s, T c) (hs : I s) :
    I (p.run exec s).2 ∧ ∀ a, (p.run exec s).1 = .ok a → post a := by
  induction p generalizing s with
  | ret a => exact ⟨hs, fun b hb => Except.ok.inj hb ▸ h⟩
  | throw e => exact ⟨hs, fun _ hb => absurd hb (by simp [Program.run])⟩
  | call c next ih =>
    obtain ⟨hc, hnext⟩ := h
    obtain ⟨ha, ht⟩ := hexec c s hc (htrace c (List.mem_cons_self ..)) hs
    exact ih _ (hnext _ ha) (fun d hd => htrace d (List.mem_cons_of_mem _ hd)) ht

theorem Safe.run {p : Program A ε α} {post : α → Prop} (h : p.Safe P Q post) {I : σ → Prop}
    (hexec : ∀ c s, P c → I s → Q c (exec c s).1 ∧ I (exec c s).2) {s : σ} (hs : I s) :
    I (p.run exec s).2 ∧ ∀ a, (p.run exec s).1 = .ok a → post a :=
  h.run_of_trace exec (T := fun _ => True) (fun c s hc _ => hexec c s hc) (fun _ _ => trivial) hs

/-- Programs do the same on states that their commands cannot tell apart. -/
theorem Safe.run_congr {p : Program A ε α} {post : α → Prop} (h : p.Safe P (fun _ _ => True) post)
    {R : σ → σ → Prop}
    (hexec : ∀ c s t, P c → R s t → (exec c s).1 = (exec c t).1 ∧ R (exec c s).2 (exec c t).2)
    {s t : σ} (hst : R s t) : (p.run exec s).1 = (p.run exec t).1 ∧ R (p.run exec s).2 (p.run exec t).2 := by
  induction p generalizing s t with
  | ret a => exact ⟨rfl, hst⟩
  | throw e => exact ⟨rfl, hst⟩
  | call c next ih =>
    obtain ⟨hc, hnext⟩ := h
    obtain ⟨ha, hR⟩ := hexec c s t hc hst
    rw [run_call, run_call, ← ha]
    exact ih _ (hnext _ trivial) hR

/-- The commands of a run of a safe program. -/
theorem Safe.trace {p : Program A ε α} {post : α → Prop} (h : p.Safe P (fun _ _ => True) post) (s : σ) :
    ∀ c ∈ p.trace exec s, P c := by
  induction p generalizing s with
  | ret a => simp [Program.trace]
  | throw e => simp [Program.trace]
  | call c next ih => exact List.forall_mem_cons.2 ⟨h.1, ih _ (h.2 _ trivial) _⟩

/-! ## Commands that throw -/

section Throwing

variable {τ : Type} (execThrowing : (c : C) → τ → Except ε (A c) × τ)

/-- The result of a program whose commands can throw, and the state it leaves. -/
def runThrowing : Program A ε α → τ → Except ε α × τ
  | ret a, s => (.ok a, s)
  | throw e, s => (.error e, s)
  | call c next, s =>
    match execThrowing c s with
    | (.ok a, s) => (next a).runThrowing s
    | (.error e, s) => (.error e, s)

theorem runThrowing_call {c : C} {s t : τ} {a : A c} (h : execThrowing c s = (.ok a, t))
    (next : A c → Program A ε α) : (call c next).runThrowing execThrowing s = (next a).runThrowing execThrowing t := by
  rw [runThrowing, h]

/-- Where the commands of the run do on `f s` what they do on `s`, so does the program. -/
theorem runThrowing_of_trace {f : σ → τ} {p : Program A ε α} {s : σ}
    (h : ∀ c ∈ p.trace exec s, ∀ s, execThrowing c (f s) = (.ok (exec c s).1, f (exec c s).2)) :
    p.runThrowing execThrowing (f s) = ((p.run exec s).1, f (p.run exec s).2) := by
  induction p generalizing s with
  | ret a => rfl
  | throw e => rfl
  | call c next ih =>
    obtain ⟨hc, hnext⟩ := List.forall_mem_cons.1 h
    rw [runThrowing_call execThrowing (hc s), run_call]
    exact ih _ hnext

end Throwing

/-! ## What a program is bound to call -/

/-- The command is called whatever the answers are. -/
def WillCall (c : C) : Program A ε α → Prop
  | ret _ => False
  | throw _ => False
  | call d next => d = c ∨ ∀ a, (next a).WillCall c

/-- What is not called now is called later. -/
theorem WillCall.next {c d : C} {next : A d → Program A ε α} (h : (call d next).WillCall c) (hne : d ≠ c) (a : A d) :
    (next a).WillCall c :=
  h.resolve_left hne a

theorem WillCall.of_safe [∀ c, Nonempty (A c)] {c : C} {p : Program A ε α} {post : α → Prop} (h : p.WillCall c)
    (hsafe : p.Safe P (fun _ _ => True) post) : P c := by
  induction p with
  | ret a => exact h.elim
  | throw e => exact h.elim
  | call d next ih =>
    rcases h with rfl | h
    · exact hsafe.1
    · obtain ⟨a⟩ : Nonempty (A d) := inferInstance
      exact ih a (h a) (hsafe.2 a trivial)

theorem WillCall.bind {c : C} {p : Program A ε α} (h : p.WillCall c) (f : α → Program A ε β) :
    (p >>= f).WillCall c := by
  induction p with
  | ret a => exact h.elim
  | throw e => exact h.elim
  | call d next ih => exact h.imp_right fun h a => ih a (h a)

/-- The program throws nothing. -/
def Total : Program A ε α → Prop
  | ret _ => True
  | throw _ => False
  | call _ next => ∀ a, (next a).Total

theorem Total.bind {p : Program A ε α} (h : p.Total) {f : α → Program A ε β} (hf : ∀ a, (f a).Total) :
    (p >>= f).Total := by
  induction p with
  | ret a => exact hf a
  | throw e => exact h.elim
  | call d next ih => exact fun a => ih a (h a)

theorem Total.willCall_bind {c : C} {p : Program A ε α} (h : p.Total) {f : α → Program A ε β}
    (hf : ∀ a, (f a).WillCall c) : (p >>= f).WillCall c := by
  induction p with
  | ret a => exact hf a
  | throw e => exact h.elim
  | call d next ih => exact .inr fun a => ih a (h a)

/-- A loop that throws nothing comes to every element. -/
theorem willCall_forM {c : C} {l : List α} {body : α → Program A ε PUnit} (htotal : ∀ a, (body a).Total) {a : α}
    (ha : a ∈ l) (h : (body a).WillCall c) : (forM l body).WillCall c := by
  induction l with
  | nil => cases ha
  | cons b l ih =>
    rw [List.forM_cons]
    rcases List.mem_cons.1 ha with rfl | ha
    · exact h.bind _
    · exact (htotal b).willCall_bind fun _ => ih ha

/-- Wherever the program calls a command and is answered, it is bound to call what `R` asks for then. -/
def Follows (R : (c : C) → A c → C → Prop) : Program A ε α → Prop
  | ret _ => True
  | throw _ => True
  | call c next => ∀ a, (∀ d, R c a d → (next a).WillCall d) ∧ (next a).Follows R

theorem follows_bind {R : (c : C) → A c → C → Prop} {p : Program A ε α} {f : α → Program A ε β}
    (h : p.Safe (fun c => ∀ a d, ¬ R c a d) (fun _ _ => True) fun a => (f a).Follows R) : (p >>= f).Follows R := by
  induction p with
  | ret a => exact h
  | throw e => trivial
  | call c next ih => exact fun a => ⟨fun d hd => absurd hd (h.1 a d), ih a (h.2 a trivial)⟩

/-- Where nothing is asked for, nothing has to follow. -/
theorem follows_of_safe {R : (c : C) → A c → C → Prop} {p : Program A ε α}
    (h : p.Safe (fun c => ∀ a d, ¬ R c a d) (fun _ _ => True) fun _ => True) : p.Follows R := by
  rw [← bind_ret p]
  exact follows_bind (h.imp fun _ _ => trivial)

/-- Whether there is a command left to call. -/
def running : Program A ε α → Bool
  | call _ _ => true
  | _ => false

/-- The command that is called next. -/
def next? : Program A ε α → Option C
  | call c _ => some c
  | _ => none

theorem WillCall.running {c : C} {p : Program A ε α} (h : p.WillCall c) : p.running = true := by
  cases p with
  | ret a => exact h.elim
  | throw e => exact h.elim
  | call d next => rfl

end Program

end Chatroom.Lib
