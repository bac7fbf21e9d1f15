import Mathlib

/-!
# Computations that log their accesses

`Traced ε α` is a computation with result `α` that logs events `ε`: the
indices of a buffer it reads, the addresses it writes. `val` is the result,
`log` the events in the order they happened. A function written once in this
monad gives both what it computes and what it touches.
-/
namespace CpuScheduler

variable {ε α β : Type}

abbrev Traced (ε : Type) := Writer (List ε)

namespace Traced

def val (x : Traced ε α) : α := (WriterT.run x).1

def log (x : Traced ε α) : List ε := (WriterT.run x).2

/-- Log the events `es`. -/
def emit (es : List ε) : Traced ε Unit := tell es

@[simp] theorem val_pure (a : α) : val (pure a : Traced ε α) = a := rfl

@[simp] theorem log_pure (a : α) : log (pure a : Traced ε α) = [] := rfl

@[simp] theorem val_bind (x : Traced ε α) (f : α → Traced ε β) :
    val (x >>= f) = val (f (val x)) := rfl

@[simp] theorem log_bind (x : Traced ε α) (f : α → Traced ε β) :
    log (x >>= f) = log x ++ log (f (val x)) := rfl

@[simp] theorem val_emit (es : List ε) : val (emit es) = () := rfl

@[simp] theorem log_emit (es : List ε) : log (emit es) = es := rfl

@[simp] theorem val_ite (c : Prop) [Decidable c] (x y : Traced ε α) :
    val (if c then x else y) = if c then val x else val y := by split <;> rfl

/-- Every logged event satisfies `P`. -/
def All (P : ε → Prop) (x : Traced ε α) : Prop := ∀ e ∈ log x, P e

variable {P : ε → Prop}

theorem all_pure (a : α) : All P (pure a : Traced ε α) := by
  simp [All]

theorem all_bind {x : Traced ε α} {f : α → Traced ε β} (hx : All P x) (hf : All P (f (val x))) :
    All P (x >>= f) := by
  intro e he
  rw [log_bind, List.mem_append] at he
  rcases he with he | he
  · exact hx e he
  · exact hf e he

theorem all_emit {es : List ε} (h : ∀ e ∈ es, P e) : All P (emit es) := h

theorem all_bind_iff {x : Traced ε α} {f : α → Traced ε β} :
    All P (x >>= f) ↔ All P x ∧ All P (f (val x)) := by
  constructor
  · intro h
    refine ⟨fun e he => h e ?_, fun e he => h e ?_⟩
    · rw [log_bind]; exact List.mem_append_left _ he
    · rw [log_bind]; exact List.mem_append_right _ he
  · intro h
    exact all_bind h.1 h.2

theorem all_emit_singleton {e : ε} : All P (emit [e]) ↔ P e := by
  simp [All]

theorem all_ite {c : Prop} [Decidable c] {x y : Traced ε α} (hx : c → All P x)
    (hy : ¬ c → All P y) : All P (if c then x else y) := by
  split
  · exact hx ‹_›
  · exact hy ‹_›

end Traced

end CpuScheduler
