import Mathlib.Data.List.Induction
import Formula.Proofs.Reading.Run

namespace Formula.Reader

variable {σ : Type}

/-- The reader is in the state once it has taken these tokens. -/
inductive Reaches (r : Reader σ) : List Token → σ → Prop
  | start : Reaches r [] r.start
  | step {taken : List Token} {s next : σ} {t : Token} (reached : Reaches r taken s)
      (ok : r.step s taken.length t = .ok next) : Reaches r (taken ++ [t]) next

def Stops (r : Reader σ) (ts : List Token) : Prop :=
  ∃ taken t rest s fault, ts = taken ++ t :: rest ∧ r.Reaches taken s ∧
    r.step s taken.length t = .error fault

variable {r : Reader σ}

/-- What every step keeps about the state and the tokens taken so far holds of every state that is
reached. -/
theorem Reaches.keeps {Inv : σ → List Token → Prop} (start : Inv r.start [])
    (keeps : ∀ s taken index t next, Inv s taken → r.step s index t = .ok next →
      Inv next (taken ++ [t]))
    {taken : List Token} {s : σ} (reached : r.Reaches taken s) : Inv s taken := by
  induction reached with
  | start => exact start
  | step reached ok inv => exact keeps _ _ _ _ _ inv ok

theorem Reaches.read_append {taken : List Token} {s : σ} (reached : r.Reaches taken s)
    (rest : List Token) : r.read (taken ++ rest) = r.readFrom s taken.length rest := by
  induction reached generalizing rest with
  | start => rfl
  | step reached ok ih =>
    rw [List.append_assoc, List.singleton_append, ih, readFrom_cons ok, List.length_append,
      List.length_singleton]

theorem Reaches.read {ts : List Token} {s : σ} (reached : r.Reaches ts s) :
    r.read ts = r.finish s ts.length := by
  have whole := reached.read_append []
  rw [List.append_nil] at whole
  exact whole

theorem readFrom_stopped {s : σ} {index : Nat} {t : Token} {fault : Fault}
    (failed : r.step s index t = .error fault) (ts : List Token) :
    r.readFrom s index (t :: ts) = .error fault := by
  rw [readFrom, failed]

theorem Reaches.read_error {taken rest : List Token} {s : σ} {t : Token} {fault : Fault}
    (reached : r.Reaches taken s) (failed : r.step s taken.length t = .error fault) :
    r.read (taken ++ t :: rest) = .error fault := by
  rw [reached.read_append, readFrom_stopped failed]

theorem reaches_or_stops (ts : List Token) : (∃ s, r.Reaches ts s) ∨ r.Stops ts := by
  induction ts using List.reverseRecOn with
  | nil => exact .inl ⟨r.start, .start⟩
  | append_singleton ts t ih =>
    rcases ih with ⟨s, reached⟩ | ⟨taken, u, rest, s, fault, rfl, reached, failed⟩
    · cases step : r.step s ts.length t with
      | ok next => exact .inl ⟨next, reached.step step⟩
      | error fault => exact .inr ⟨ts, t, [], s, fault, rfl, reached, step⟩
    · refine .inr ⟨taken, u, rest ++ [t], s, fault, ?_, reached, failed⟩
      rw [List.append_assoc, List.cons_append]

theorem read_error {ts : List Token} {fault : Fault} (failed : r.read ts = .error fault) :
    (∃ taken t rest s, ts = taken ++ t :: rest ∧ r.Reaches taken s ∧
      r.step s taken.length t = .error fault) ∨
    ∃ s, r.Reaches ts s ∧ r.finish s ts.length = .error fault := by
  rcases r.reaches_or_stops ts with ⟨s, reached⟩ | ⟨taken, t, rest, s, found, rfl, reached, stopped⟩
  · rw [reached.read] at failed
    exact .inr ⟨s, reached, failed⟩
  · rw [reached.read_error stopped] at failed
    cases failed
    exact .inl ⟨taken, t, rest, s, rfl, reached, stopped⟩

end Formula.Reader
