import Mathlib.Data.List.Basic
import Mathlib.Tactic.Common

/-!
# Transducers, and consumers that read their input in chunks

A transducer reads one symbol at a time and emits a list of outputs. Its run over a concatenation is the
composition of the runs (`run_append`), so it does not see how an input was cut. A *consumer* is a program
that is handed whole chunks; if one call of it is simulated by the run of a transducer over the chunk, then
feeding it chunk after chunk is simulated by one run over the concatenation (`simulates_foldl`).
-/

namespace Chatroom.Lib

/-- A transducer: reads one `α` at a time, emits a list of `ε`. -/
structure Transducer (σ α ε : Type*) where
  step : σ → α → σ × List ε

namespace Transducer

variable {σ α ε κ : Type*} (T : Transducer σ α ε)

/-- The run over a list of symbols: the last state and everything emitted. -/
def run : σ → List α → σ × List ε
  | s, [] => (s, [])
  | s, a :: l => ((run (T.step s a).1 l).1, (T.step s a).2 ++ (run (T.step s a).1 l).2)

@[simp] theorem run_nil (s : σ) : T.run s [] = (s, []) := rfl

theorem run_cons (s : σ) (a : α) (l : List α) :
    T.run s (a :: l) = ((T.run (T.step s a).1 l).1, (T.step s a).2 ++ (T.run (T.step s a).1 l).2) := rfl

theorem run_append (s : σ) (l m : List α) :
    T.run s (l ++ m) =
      ((T.run (T.run s l).1 m).1, (T.run s l).2 ++ (T.run (T.run s l).1 m).2) := by
  induction l generalizing s with
  | nil => simp
  | cons a l ih => simp only [List.cons_append, run_cons, ih, List.append_assoc]

/-- A run whose first part is known continues from the state that part reaches. -/
theorem run_append_of_eq {s s' : σ} {l : List α} {out : List ε} (h : T.run s l = (s', out)) (m : List α) :
    T.run s (l ++ m) = ((T.run s' m).1, out ++ (T.run s' m).2) := by
  rw [run_append, h]

/-- **One call of a consumer is one run over its chunk.** `R` relates the state of the transducer and all it
has emitted to the state of the consumer. -/
def Simulates (R : σ → List ε → κ → Prop) (consume : κ → List α → κ) (ok : List α → Prop) : Prop :=
  ∀ s out c chunk, ok chunk → R s out c →
    R (T.run s chunk).1 (out ++ (T.run s chunk).2) (consume c chunk)

/-- **Feeding chunks is one run over their concatenation.** -/
theorem simulates_foldl {R : σ → List ε → κ → Prop} {consume : κ → List α → κ} {ok : List α → Prop}
    (hsim : T.Simulates R consume ok) {s : σ} {out : List ε} {c : κ} (h : R s out c)
    (chunks : List (List α)) (hok : ∀ chunk ∈ chunks, ok chunk) :
    R (T.run s chunks.flatten).1 (out ++ (T.run s chunks.flatten).2) (chunks.foldl consume c) := by
  induction chunks generalizing s out c with
  | nil => simpa using h
  | cons chunk chunks ih =>
    have hstep := hsim s out c chunk (hok chunk (by simp)) h
    have := ih hstep fun x hx => hok x (by simp [hx])
    rw [List.flatten_cons, run_append]
    simpa [List.append_assoc] using this

end Transducer

end Chatroom.Lib
