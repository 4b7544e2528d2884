import QuantizedConv.Arithmetic.Fault

/-!
# Counting loops

A loop over the indices below a bound hands a value from one index to the next and stops at the
first error. The indices are counted and never listed, so that a loop that stops early costs nothing
for the rest. The result is that of the fold over the list of indices
(`foldIndices_eq_foldlM`). A loop whose steps leave something behind reports it, with the fault, as
a `Stopped` state.
-/

set_option autoImplicit false

namespace QuantizedConv

/-- A computation that stopped at a fault, with what it had done so far. -/
structure Stopped (σ : Type) where
  /-- The fault. -/
  fault : Fault
  /-- The state before the step that did not succeed. -/
  state : σ

/-- A step taken in a state: its fault stops the computation there. -/
def Stopped.during {σ β : Type} (state : σ) : Except Fault β → Except (Stopped σ) β
  | .ok value => .ok value
  | .error fault => .error ⟨fault, state⟩

variable {ε β : Type}

/-- Takes `count` steps, at the indices from `index` on. -/
def foldFrom (step : β → Nat → Except ε β) : Nat → Nat → β → Except ε β
  | 0, _, value => .ok value
  | count + 1, index, value =>
    match step value index with
    | .error error => .error error
    | .ok next => foldFrom step count (index + 1) next

/-- Takes a step at every index below `count`. -/
def foldIndices (count : Nat) (step : β → Nat → Except ε β) (start : β) : Except ε β :=
  foldFrom step count 0 start

/-- The loop over a run of indices is the monadic fold over the list of these indices. -/
theorem foldFrom_eq_foldlM (step : β → Nat → Except ε β) (count index : Nat) (value : β) :
    foldFrom step count index value = (List.range' index count).foldlM step value := by
  induction count generalizing index value with
  | zero => rfl
  | succ count ih =>
    rw [foldFrom, List.range'_succ, List.foldlM_cons]
    cases step value index with
    | error error => rfl
    | ok next => exact ih (index + 1) next

/-- The loop over all indices below a count is the monadic fold over `List.range`. -/
theorem foldIndices_eq_foldlM (count : Nat) (step : β → Nat → Except ε β) (start : β) :
    foldIndices count step start = (List.range count).foldlM step start := by
  rw [foldIndices, foldFrom_eq_foldlM, List.range_eq_range']

end QuantizedConv
