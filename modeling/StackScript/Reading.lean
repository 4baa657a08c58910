/-
# Reading from a place on

A reading that starts at some place finds a value and goes on to another place, or stops at a
fault. What a place is differs: what is left of a list, or a cursor in a text. Either way it has a
size, how much is left to read from there on. The type says that less than a bound is left after
what was found, so that a reader can call itself there.

Key definitions: `Reading`, `Reading.bind`, `Reading.within`.
-/

namespace StackScript

/-- The outcome of reading a value: what was found, and the place after it, of a size below `bound`,
or a fault. -/
inductive Reading {σ : Type} (size : σ → Nat) (ε : Type) (bound : Nat) (α : Type) where
  | found (value : α) (rest : σ)
      (h : size rest < bound := by (try simp only [List.length_cons] at *); omega)
  | fault (reason : ε)

namespace Reading

variable {σ ε α β : Type} {size : σ → Nat} {m n : Nat}

/-- Applies a function to what was found. -/
def map (f : α → β) : Reading size ε n α → Reading size ε n β
  | found a rest h => found (f a) rest h
  | fault e => fault e

/-- Goes on from what was found. -/
def bind (r : Reading size ε m α)
    (next : (value : α) → (rest : σ) → size rest < m → Reading size ε n β) :
    Reading size ε n β :=
  match r with
  | found a rest h => next a rest h
  | fault e => fault e

/-- The same reading under a larger bound. -/
def within (r : Reading size ε m α)
    (h : m ≤ n := by (try simp only [List.length_cons] at *); omega) : Reading size ε n α :=
  match r with
  | found a rest hr => found a rest (Nat.lt_of_lt_of_le hr h)
  | fault e => fault e

end Reading

end StackScript
