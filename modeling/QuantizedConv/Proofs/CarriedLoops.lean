import QuantizedConv.Proofs.Loops

/-!
# Loops on carried values

Two computations that take the same steps on different values are related by `carry`: the one gives
what the other gives, with its error and its value carried over. Steps one after the other keep this
(`carry_bind`, `bind_carry`), and so do counting loops (`foldIndices_carry`) and the loop nest over all
output pixels (`foldPixels_carry`). What is carried over can change from index to index, as it does
where one of the two loops counts and the other does not (`foldIndices_carry_numbered`,
`foldPixels_carry_numbered`).
-/

set_option autoImplicit false

namespace QuantizedConv

variable {ε ε' β β' γ γ' : Type}

/-- A computation with its error and its value carried over to other types. -/
def carry (onError : ε → ε') (onValue : β → β') : Except ε β → Except ε' β'
  | .ok value => .ok (onValue value)
  | .error error => .error (onError error)

/-- A state in which a computation stopped, carried over. -/
def Stopped.map (f : β → β') (stopped : Stopped β) : Stopped β' := ⟨stopped.fault, f stopped.state⟩

variable {onError : ε → ε'} {f : β → β'} {k : γ → γ'}

/-- A sequence of two computations is carried over where both of them are. -/
theorem carry_bind {first : Except ε β} {second : β → Except ε γ} {second' : β' → Except ε' γ'}
    (h : ∀ value, second' (f value) = carry onError k (second value)) :
    (carry onError f first >>= second') = carry onError k (first >>= second) := by
  cases first with
  | ok value => exact h value
  | error error => rfl

/-- What is carried over can be handed to a step that only looks at what has not changed. -/
theorem carry_bind_eq {first : Except ε β} {second : β → Except ε γ} {second' : β' → Except ε γ}
    (h : ∀ value, second' (f value) = second value) :
    (carry id f first >>= second') = first >>= second := by
  cases first with
  | ok value => exact h value
  | error error => rfl

/-- A sequence is carried over where its first computation is the same and its second is carried
over. -/
theorem bind_carry {first : Except ε β} {second : β → Except ε γ} {second' : β → Except ε γ'}
    (h : ∀ value, second' value = carry id k (second value)) :
    (first >>= second') = carry id k (first >>= second) := by
  cases first with
  | ok value => exact h value
  | error error => rfl

/-- A step that does not touch the state stops with the mapped state where it stops with the
state. -/
theorem during_map (f : β → β') (state : β) (step : Except Fault γ) :
    Stopped.during (f state) step = carry (Stopped.map f) id (Stopped.during state step) := by
  cases step <;> rfl

/-- A step whose value is carried over stops with the mapped state where it stops with the state. -/
theorem during_carry (f : β → β') (state : β) (k : γ → γ') (step : Except Fault γ) :
    Stopped.during (f state) (carry id k step) =
      carry (Stopped.map f) k (Stopped.during state step) := by
  cases step <;> rfl

/-- A loop carries over what its steps carry over. The index can take part in what is carried: `f i` is
what was carried over before step `i`. -/
theorem foldIndices_carry_numbered {step : β → Nat → Except ε β} {step' : β' → Nat → Except ε' β'}
    {count : Nat} {start : β} {start' : β'} (f : Nat → β → β') (hstart : start' = f 0 start)
    (hstep : ∀ i < count, ∀ value,
      step' (f i value) i = carry onError (f (i + 1)) (step value i)) :
    foldIndices count step' start' = carry onError (f count) (foldIndices count step start) := by
  induction count with
  | zero =>
    rw [hstart]
    rfl
  | succ count ih =>
    rw [foldIndices_succ, foldIndices_succ, ih fun i hi => hstep i (by omega)]
    exact carry_bind fun value => hstep count (by omega) value

/-- A loop carries over what all its steps carry over in the same way. -/
theorem foldIndices_carry {step : β → Nat → Except ε β} {step' : β' → Nat → Except ε' β'}
    (hstep : ∀ i value, step' (f value) i = carry onError f (step value i)) (count : Nat)
    (start : β) :
    foldIndices count step' (f start) = carry onError f (foldIndices count step start) :=
  foldIndices_carry_numbered (fun _ => f) rfl fun i _ => hstep i

section Pixels

variable {ρ κ : Type} {output : Nhwc} {ofRow : Nat → Except Fault ρ}
  {ofColumn : Nat → Except Fault κ} {stop : β → Fault → ε} {stop' : β' → Fault → ε'}
  {visit : β → Nat → Nat → ρ → Nat → κ → Except ε β}
  {visit' : β' → Nat → Nat → ρ → Nat → κ → Except ε' β'}

/-- The loops over all pixels carry over what the visits carry over. The row-major number of the pixel
can take part in it. -/
theorem foldPixels_carry_numbered (onError : ε → ε') (f : Nat → β → β')
    (hstop : ∀ index state fault, stop' (f index state) fault = onError (stop state fault))
    (hvisit : ∀ batch < output.batches, ∀ row < output.height, ∀ column < output.width,
      ∀ state vertical horizontal,
        visit' (f ((batch * output.height + row) * output.width + column) state)
            batch row vertical column horizontal =
          carry onError (f ((batch * output.height + row) * output.width + column + 1))
            (visit state batch row vertical column horizontal)) (start : β) :
    foldPixels output ofRow ofColumn stop' visit' (f 0 start) =
      carry onError (f (output.batches * output.height * output.width))
        (foldPixels output ofRow ofColumn stop visit start) := by
  refine foldIndices_carry_numbered (fun batch => f (batch * output.height * output.width))
    (by simp only [Nat.zero_mul]) ?_
  intro batch hb state
  -- the rows of one batch
  rw [show (batch + 1) * output.height * output.width =
    (batch * output.height + output.height) * output.width by ring]
  refine foldIndices_carry_numbered (fun row => f ((batch * output.height + row) * output.width))
    rfl ?_
  intro row hr state
  cases ofRow row with
  | error fault => exact congrArg Except.error (hstop _ state fault)
  | ok vertical =>
    -- the pixels of one row
    rw [show (batch * output.height + (row + 1)) * output.width =
      (batch * output.height + row) * output.width + output.width by ring]
    refine foldIndices_carry_numbered
      (fun column => f ((batch * output.height + row) * output.width + column)) rfl ?_
    intro column hc state
    cases ofColumn column with
    | error fault => exact congrArg Except.error (hstop _ state fault)
    | ok horizontal => exact hvisit batch hb row hr column hc state vertical horizontal

/-- The loops over all pixels carry over what all visits carry over in the same way. -/
theorem foldPixels_carry (onError : ε → ε') (f : β → β')
    (hstop : ∀ state fault, stop' (f state) fault = onError (stop state fault))
    (hvisit : ∀ state batch row vertical column horizontal,
      visit' (f state) batch row vertical column horizontal =
        carry onError f (visit state batch row vertical column horizontal)) (start : β) :
    foldPixels output ofRow ofColumn stop' visit' (f start) =
      carry onError f (foldPixels output ofRow ofColumn stop visit start) := by
  refine foldPixels_carry_numbered onError (fun _ => f) (fun _ => hstop) ?_ start
  intro batch _ row _ column _ state vertical horizontal
  exact hvisit state batch row vertical column horizontal

end Pixels

/-- Kernels that write window by window carry over what they do at each window. -/
theorem foldWindows_carry (layer : Layer) (output : Nhwc)
    {visit : β → Window → Except (Stopped β) β} {visit' : β' → Window → Except (Stopped β') β'}
    (hvisit : ∀ state window, visit' (f state) window = carry (Stopped.map f) f (visit state window))
    (start : β) :
    layer.foldWindows output (fun state fault => ⟨fault, state⟩) visit' (f start) =
      carry (Stopped.map f) f
        (layer.foldWindows output (fun state fault => ⟨fault, state⟩) visit start) := by
  unfold Layer.foldWindows
  exact foldPixels_carry (Stopped.map f) f (fun _ _ => rfl) (fun state _ _ _ _ _ => hvisit state _)
    start

end QuantizedConv
