import Mathlib.Tactic.TypeStar

/-!
# Lib.Program — programs that call their surroundings

A program over an interface either is done or makes a call and goes on with the
answer. What answers is an `Environment`: any function of the call and a state of its
own, so a result about every environment is one about whatever else happens between
two calls. A run yields the result, the calls with their answers in order, and the
state of the environment.
-/

/-- Calls, and what is answered to each. -/
structure Interface where
  Call : Type
  Answer : Call → Type

/-- A program that makes calls of an interface and results in an `α`. -/
inductive Program (I : Interface) (α : Type) where
  | done (a : α)
  | call (c : I.Call) (next : I.Answer c → Program I α)

namespace Program

variable {I : Interface} {α β σ : Type}

/-- Go on with the result. -/
def bind : Program I α → (α → Program I β) → Program I β
  | done a, k => k a
  | call c next, k => call c fun answer => (next answer).bind k

instance : Monad (Program I) where
  pure := done
  bind := bind

/-- A single call. -/
def perform (c : I.Call) : Program I (I.Answer c) := call c done

/-- What answers the calls of a program. -/
structure Environment (I : Interface) (σ : Type) where
  answer : (c : I.Call) → σ → I.Answer c × σ

/-- A call with its answer. -/
abbrev Event (I : Interface) := (c : I.Call) × I.Answer c

/-- How a run ends. -/
structure Ended (I : Interface) (α σ : Type) where
  result : α
  events : List (Event I)
  state : σ

/-- Run a program in an environment. -/
def run (env : Environment I σ) : Program I α → σ → Ended I α σ
  | done a, s => ⟨a, [], s⟩
  | call c next, s =>
    let r := env.answer c s
    let rest := run env (next r.1) r.2
    { rest with events := ⟨c, r.1⟩ :: rest.events }

/-- The state a run ends in. -/
abbrev exec (env : Environment I σ) (p : Program I α) (s : σ) : σ := (p.run env s).state

variable {env : Environment I σ} {s : σ}

/-- A run of two programs in sequence is their runs in sequence. -/
theorem run_bind (p : Program I α) (k : α → Program I β) :
    (p >>= k).run env s =
      let first := p.run env s
      let second := (k first.result).run env first.state
      ⟨second.result, first.events ++ second.events, second.state⟩ := by
  induction p generalizing s with
  | done a => rfl
  | call c next ih =>
    have hnext := ih (env.answer c s).1 (s := (env.answer c s).2)
    show (Program.call c fun answer => (next answer).bind k).run env s = _
    rw [run]
    dsimp only
    rw [show ((next (env.answer c s).1).bind k) = (next (env.answer c s).1 >>= k) from rfl, hnext]
    rfl

/-- The state after two programs in sequence. -/
theorem exec_bind (p : Program I α) (k : α → Program I β) :
    (p >>= k).exec env s = (k (p.run env s).result).exec env (p.exec env s) := by
  rw [exec, run_bind]

end Program
