/-
# What a reading finds

A reading carries the proof that its rest is short, which no statement about what was read needs.
`Reading.Finds` leaves it out: the reading found this value and left this rest. Each way of
building a reading has one lemma that says when the result finds something, so that a reader is
taken apart by `simp only` with its own equation and these lemmas.

Key definition: `Reading.Finds`.
Key theorems: `Reading.bind_finds`, `expect_finds`, `literal_finds`.
-/
import StackScript.Tree.Parser

namespace StackScript

namespace Reading

variable {σ ε α β : Type} {size : σ → Nat} {m n : Nat}

/-- The reading found `value` and left `rest`. -/
def Finds (r : Reading size ε n α) (value : α) (rest : σ) : Prop := ∃ h, r = .found value rest h

@[simp] theorem found_finds {a b : α} {mid rest : σ} {h : size mid < n} :
    (found a mid h : Reading size ε n α).Finds b rest ↔ a = b ∧ mid = rest := by
  constructor
  · rintro ⟨_, he⟩
    simpa using he
  · rintro ⟨rfl, rfl⟩
    exact ⟨h, rfl⟩

@[simp] theorem fault_finds {e : ε} {b : α} {rest : σ} :
    ¬ (fault e : Reading size ε n α).Finds b rest := by
  rintro ⟨_, he⟩
  simp at he

@[simp] theorem within_finds {r : Reading size ε m α} {h : m ≤ n} {a : α} {rest : σ} :
    (r.within h).Finds a rest ↔ r.Finds a rest := by
  cases r <;> simp [within]

@[simp] theorem map_finds {r : Reading size ε n α} {f : α → β} {b : β} {rest : σ} :
    (r.map f).Finds b rest ↔ ∃ a, r.Finds a rest ∧ f a = b := by
  cases r with
  | fault e => simp [map]
  | found a mid h =>
    simp only [map, found_finds]
    constructor
    · rintro ⟨hb, hr⟩
      exact ⟨a, ⟨rfl, hr⟩, hb⟩
    · rintro ⟨_, ⟨rfl, hr⟩, hb⟩
      exact ⟨hb, hr⟩

/-- What is found after something else was found in front of it. -/
theorem bind_finds {r : Reading size ε m α}
    {next : (value : α) → (rest : σ) → size rest < m → Reading size ε n β}
    {b : β} {rest : σ} :
    (r.bind next).Finds b rest ↔
      ∃ a mid, ∃ h : size mid < m, r.Finds a mid ∧ (next a mid h).Finds b rest := by
  cases r with
  | fault e => simp [bind]
  | found a mid h =>
    constructor
    · intro hb
      exact ⟨a, mid, h, by simp, hb⟩
    · rintro ⟨a', mid', h', ha, hb⟩
      obtain ⟨rfl, rfl⟩ := found_finds.mp ha
      exact hb

theorem found_bind {a : α} {rest : σ} {h : size rest < m}
    {next : (value : α) → (rest : σ) → size rest < m → Reading size ε n β} :
    (found a rest h : Reading size ε m α).bind next = next a rest h := rfl

theorem map_bind {γ : Type} {r : Reading size ε m α} {f : α → β}
    {next : (value : β) → (rest : σ) → size rest < m → Reading size ε n γ} :
    (r.map f).bind next = r.bind fun a rest h => next (f a) rest h := by
  cases r <;> rfl

theorem within_bind {k : Nat} {r : Reading size ε m α} {h : m ≤ k}
    {next : (value : α) → (rest : σ) → size rest < k → Reading size ε n β} :
    (r.within h).bind next = r.bind fun a rest hr => next a rest (Nat.lt_of_lt_of_le hr h) := by
  cases r <;> rfl

/-- A reading finds at most one thing. -/
theorem Finds.unique {r : Reading size ε n α} {a b : α} {rest rest' : σ} (ha : r.Finds a rest)
    (hb : r.Finds b rest') : a = b ∧ rest = rest' := by
  obtain ⟨h, rfl⟩ := ha
  exact found_finds.mp hb

theorem Finds.size_lt {r : Reading size ε n α} {a : α} {rest : σ} (h : r.Finds a rest) :
    size rest < n := h.1

end Reading

/-! ### One token -/

theorem expect_finds {kind : Kind} {ts rest : List Token} {t : Token} :
    (expect kind ts).Finds t rest ↔ ts = t :: rest ∧ t.kind = kind := by
  unfold expect
  split
  · simp
  · next u us =>
    split
    · next h =>
      rw [Reading.found_finds, List.cons.injEq]
      constructor
      · rintro ⟨rfl, rfl⟩
        exact ⟨⟨rfl, rfl⟩, h⟩
      · exact And.left
    · next h =>
      constructor
      · exact fun hf => absurd hf Reading.fault_finds
      · rintro ⟨he, hk⟩
        rw [List.cons.injEq] at he
        exact absurd (he.1 ▸ hk) h

theorem literal_finds {α : Type} {value : Except Cause α} {t : Token} {ts rest : List Token}
    {a : α} : (literal value t ts).Finds a rest ↔ value = .ok a ∧ ts = rest := by
  cases value <;> simp [literal]

end StackScript
