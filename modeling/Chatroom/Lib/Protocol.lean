import Chatroom.Lib.Program

/-!
# Protocols, and programs that can block

A protocol has states; `δ s c a` is the state after the command `c` was called in `s` and answered `a`, if it may
be called there. A program `Obeys` the protocol from a state when it calls what may be called, whatever the
answers are that satisfy `Q`, and ends where it may end.

`eval` runs a program whose commands can block. A program that obeys a protocol does not block, and ends in a state
that the protocol describes, when the commands that may be called do not and do (`Obeys.eval`).
-/

namespace Chatroom.Lib.Program

variable {C : Type} {A : C → Type} {ε α β σ S : Type}

/-! ## Commands that can block -/

section Eval

variable (exec : (c : C) → σ → Option (A c × σ))

/-- The result of a program and the state it leaves; none if a command blocks. -/
def eval : Program A ε α → σ → Option (Except ε α × σ)
  | ret a, s => some (.ok a, s)
  | throw e, s => some (.error e, s)
  | call c next, s => (exec c s).bind fun r => (next r.1).eval r.2

@[simp] theorem eval_ret (a : α) (s : σ) : (ret a : Program A ε α).eval exec s = some (.ok a, s) := rfl

@[simp] theorem eval_throw (e : ε) (s : σ) : (throw e : Program A ε α).eval exec s = some (.error e, s) := rfl

@[simp] theorem eval_call (c : C) (next : A c → Program A ε α) (s : σ) :
    (call c next).eval exec s = (exec c s).bind fun r => (next r.1).eval exec r.2 := rfl

@[simp] theorem eval_perform (c : C) (s : σ) :
    (perform c : Program A ε (A c)).eval exec s = (exec c s).map fun r => (.ok r.1, r.2) := by
  rw [perform, eval_call]
  cases exec c s <;> rfl

theorem eval_bind (p : Program A ε α) (f : α → Program A ε β) (s : σ) :
    (p >>= f).eval exec s = (p.eval exec s).bind fun r =>
      match r with
      | (.ok a, t) => (f a).eval exec t
      | (.error e, t) => some (.error e, t) := by
  induction p generalizing s with
  | ret a => rfl
  | throw e => rfl
  | call c next ih =>
    rw [call_bind, eval_call, eval_call, Option.bind_assoc]
    exact congrArg _ (funext fun r => ih r.1 r.2)

end Eval

/-! ## Protocols -/

section Obeys

variable {δ : S → (c : C) → A c → Option S} {Q : (c : C) → A c → Prop}

/-- What the program calls from the state on may be called, and it ends in a state in which it may. -/
def Obeys (δ : S → (c : C) → A c → Option S) (Q : (c : C) → A c → Prop) (final : Except ε α → S → Prop) :
    Program A ε α → S → Prop
  | ret a, s => final (.ok a) s
  | throw e, s => final (.error e) s
  | call c next, s => ∀ a, Q c a → ∃ t, δ s c a = some t ∧ Obeys δ Q final (next a) t

@[simp] theorem obeys_ret (final : Except ε α → S → Prop) (a : α) (s : S) :
    (ret a : Program A ε α).Obeys δ Q final s ↔ final (.ok a) s := Iff.rfl

@[simp] theorem obeys_throw (final : Except ε α → S → Prop) (e : ε) (s : S) :
    (throw e : Program A ε α).Obeys δ Q final s ↔ final (.error e) s := Iff.rfl

@[simp] theorem obeys_perform {c : C} {final : Except ε (A c) → S → Prop} {s : S} :
    (perform c : Program A ε (A c)).Obeys δ Q final s ↔ ∀ a, Q c a → ∃ t, δ s c a = some t ∧ final (.ok a) t :=
  Iff.rfl

theorem obeys_bind {p : Program A ε α} {f : α → Program A ε β} {final : Except ε β → S → Prop} {s : S} :
    (p >>= f).Obeys δ Q final s ↔ p.Obeys δ Q (fun r t =>
      match r with
      | .ok a => (f a).Obeys δ Q final t
      | .error e => final (.error e) t) s := by
  induction p generalizing s with
  | ret a => rfl
  | throw e => rfl
  | call c next ih =>
    refine forall_congr' fun a => imp_congr_right fun _ => exists_congr fun t => ?_
    exact and_congr_right fun _ => ih a

theorem Obeys.mono {p : Program A ε α} {final final' : Except ε α → S → Prop} {s : S} (h : p.Obeys δ Q final s)
    (hfinal : ∀ r t, final r t → final' r t) : p.Obeys δ Q final' s := by
  induction p generalizing s with
  | ret a => exact hfinal _ _ h
  | throw e => exact hfinal _ _ h
  | call c next ih =>
    intro a ha
    obtain ⟨t, ht, hnext⟩ := h a ha
    exact ⟨t, ht, ih a hnext⟩

/-- A loop whose body leads from a state back to it. -/
theorem obeys_mapM {l : List α} {f : α → Program A ε β} {s : S}
    (hf : ∀ a ∈ l, (f a).Obeys δ Q (fun r t => (∃ b, r = .ok b) ∧ t = s) s) :
    (l.mapM f).Obeys δ Q (fun r t => (∃ bs, r = .ok bs) ∧ t = s) s := by
  induction l with
  | nil => exact ⟨⟨[], rfl⟩, rfl⟩
  | cons a l ih =>
    rw [List.mapM_cons, obeys_bind]
    refine (hf a (by simp)).mono ?_
    rintro r t ⟨⟨b, rfl⟩, rfl⟩
    show Obeys _ _ _ _ _
    rw [obeys_bind]
    refine (ih fun c hc => hf c (by simp [hc])).mono ?_
    rintro r t ⟨⟨bs, rfl⟩, rfl⟩
    exact ⟨⟨b :: bs, rfl⟩, rfl⟩

/-- **A program that obeys the protocol does not block**, and ends in a state as the protocol has it: `R s x` says
that `x` is such a state for `s`. -/
theorem Obeys.eval {p : Program A ε α} {final : Except ε α → S → Prop} {s : S} (h : p.Obeys δ Q final s)
    {exec : (c : C) → σ → Option (A c × σ)} {R : S → σ → Prop}
    (hexec : ∀ s c x, R s x → (∀ a, Q c a → (δ s c a).isSome) →
      ∃ a y, exec c x = some (a, y) ∧ Q c a ∧ ∀ t, δ s c a = some t → R t y)
    {x : σ} (hx : R s x) : ∃ r y t, p.eval exec x = some (r, y) ∧ final r t ∧ R t y := by
  induction p generalizing s x with
  | ret a => exact ⟨.ok a, x, s, rfl, h, hx⟩
  | throw e => exact ⟨.error e, x, s, rfl, h, hx⟩
  | call c next ih =>
    have hallowed : ∀ a, Q c a → (δ s c a).isSome := by
      intro a ha
      obtain ⟨t, ht, -⟩ := h a ha
      exact Option.isSome_iff_exists.2 ⟨t, ht⟩
    obtain ⟨a, y, hcall, ha, hR⟩ := hexec s c x hx hallowed
    obtain ⟨t, ht, hnext⟩ := h a ha
    rw [eval_call, hcall]
    exact ih a hnext (hR t ht)

end Obeys

end Chatroom.Lib.Program
