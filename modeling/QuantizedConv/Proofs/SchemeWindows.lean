import QuantizedConv.Proofs.ResolvedPadding
import Mathlib.Algebra.Order.Floor.Semiring
import Mathlib.SetTheory.Cardinal.Finite
import Mathlib.Tactic

/-!
# The windows of a padding scheme

Both schemes count windows with one quotient. Without padding, a window is counted exactly when it ends
inside the input (`PaddingScheme.lt_windows_valid_iff`), so that nothing is padded and no tap is left
out. With padding, a window is counted exactly when it starts inside the input
(`PaddingScheme.lt_windows_same_iff`); a filter that is no shorter than the stride then leaves no gap
between two windows, and the padding is half of what the windows have too much.
-/

set_option autoImplicit false

namespace QuantizedConv

/-- Without dilation, a filter covers its own extent. -/
theorem coverage_one (filter : ℕ) : coverage filter 1 = filter := by
  unfold coverage
  split <;> omega

/-- The last tap of a filter is the last element that it covers. -/
theorem tap_lt_coverage {filter dilation tap : ℕ} (htap : tap < filter) :
    tap * dilation < coverage filter dilation := by
  have hlast : tap * dilation ≤ (filter - 1) * dilation := Nat.mul_le_mul_right _ (by omega)
  unfold coverage
  rw [if_neg (by omega)]
  omega

/-- Windows that are no shorter than their distance leave no gap. -/
theorem exists_window_over {last stride filter place : ℕ} (hstride : 1 ≤ stride)
    (hfilter : stride ≤ filter) (hplace : place < last * stride + filter) :
    ∃ o < last + 1, ∃ f < filter, place = o * stride + f := by
  by_cases hwindow : place / stride ≤ last
  · refine ⟨place / stride, by omega, place % stride, ?_, ?_⟩
    · exact lt_of_lt_of_le (Nat.mod_lt place hstride) hfilter
    · rw [Nat.mul_comm, Nat.div_add_mod]
  · -- behind the start of the last window, that window is the one
    have hstart : last * stride ≤ place :=
      (Nat.le_div_iff_mul_le hstride).mp (Nat.le_of_lt (not_le.mp hwindow))
    exact ⟨last, Nat.lt_succ_self last, place - last * stride, by omega, by omega⟩

namespace PaddingScheme

/-- Without padding, the windows are those that end inside the input. -/
theorem lt_windows_valid_iff {input covered stride o : ℕ} (hstride : 1 ≤ stride) :
    o < valid.windows input covered stride ↔ o * stride + covered ≤ input := by
  rw [windows, ← Nat.succ_le_iff, Nat.le_div_iff_mul_le hstride, Nat.succ_mul]
  omega

/-- With padding, the windows are those that start inside the input. -/
theorem lt_windows_same_iff (covered input o : ℕ) {stride : ℕ} (hstride : 1 ≤ stride) :
    o < same.windows input covered stride ↔ o * stride < input := by
  rw [windows, ← Nat.succ_le_iff, Nat.le_div_iff_mul_le hstride, Nat.succ_mul]
  omega

/-- The number of windows of the scheme that keeps the extent is the input over the stride, rounded
up. -/
theorem windows_same_eq_ceil (covered input : ℕ) {stride : ℕ} (hstride : 1 ≤ stride) :
    same.windows input covered stride = ⌈(input : ℚ) / stride⌉₊ := by
  have hpos : (0 : ℚ) < stride := by exact_mod_cast hstride
  apply eq_of_forall_lt_iff
  intro o
  rw [lt_windows_same_iff covered input o hstride, Nat.lt_ceil, lt_div_iff₀ hpos]
  norm_cast

/-- With padding, the last window starts in the last stride of the input. -/
theorem exists_last_window (covered : ℕ) {input stride : ℕ} (hinput : 1 ≤ input) (hstride : 1 ≤ stride) :
    ∃ last, same.windows input covered stride = last + 1 ∧ last * stride < input ∧
      input ≤ last * stride + stride := by
  have hfirst : 0 < same.windows input covered stride := by
    rw [lt_windows_same_iff covered input 0 hstride]
    omega
  obtain ⟨last, hlast⟩ := Nat.exists_eq_succ_of_ne_zero hfirst.ne'
  refine ⟨last, hlast, ?_, ?_⟩
  · rw [← lt_windows_same_iff covered input _ hstride, hlast]
    exact Nat.lt_succ_self last
  · have hnext : ¬(last + 1) * stride < input := by
      rw [← lt_windows_same_iff covered input _ hstride, hlast]
      exact lt_irrefl _
    rw [Nat.succ_mul] at hnext
    omega

end PaddingScheme

/-- Along an axis without padding, a kernel finds a tap that lies inside the input at its place. -/
theorem Axis.under_unpadded {axis : Axis} (hpadding : axis.padding = 0) {input position tap : ℕ}
    (hinput : input < Checked.signedBound)
    (htap : position * axis.stride.toNat + tap * axis.dilation.toNat < input) :
    (do axis.under (← axis.origin position) input tap) =
      .ok (some (position * axis.stride.toNat + tap * axis.dilation.toNat)) := by
  have hfits : axis.Fits (position + 1) (tap + 1) := by
    refine ⟨?_, ?_⟩
    · simp only [Nat.add_sub_cancel]
      omega
    · rw [hpadding]
      decide
  have hcoordinate : axis.coordinate position tap =
      (position * axis.stride.toNat + tap * axis.dilation.toNat : ℕ) := by
    simp [Axis.coordinate, Axis.start, hpadding]
  rw [bind_of_ok (Axis.origin_eq hfits (Nat.lt_succ_self position)),
    Axis.under_eq hfits (Nat.lt_succ_self position) (Nat.lt_succ_self tap) input, hcoordinate,
    inside?_of_lt hinput (Int.natCast_nonneg _) (by exact_mod_cast htap), Int.toNat_natCast]

namespace PaddingScheme

/-- **Without padding, the windows are exactly those that fit.** Their number is found without a fault,
it is the number of windows that end inside the input, and they need no padding. No tap of them is
outside the input, so that a kernel leaves out none, and one more window would overrun the input. -/
theorem valid_windows_fit (input filter stride dilation : ℕ) (hstride : 1 ≤ stride)
    (hstep : input + stride < Checked.sizeBound)
    (hcovered : coverage filter dilation < Checked.sizeBound) :
    ∃ output,
      valid.outputExtent input filter stride dilation = .ok output ∧
      {o : ℕ | o * stride + coverage filter dilation ≤ input} = Set.Iio output ∧
      Nat.card {o : ℕ // o * stride + coverage filter dilation ≤ input} = output ∧
      leadingPadding stride dilation input filter output = .ok 0 ∧
      (∀ o < output, ∀ f < filter, o * stride + f * dilation < input) ∧
      input < output * stride + coverage filter dilation ∧
      ∀ axis : Axis, axis.stride.toNat = stride → axis.dilation.toNat = dilation →
        axis.padding = 0 → input < Checked.signedBound → ∀ o < output, ∀ f < filter,
          (do axis.under (← axis.origin o) input f) = .ok (some (o * stride + f * dilation)) := by
  obtain ⟨output, hextent, hcount⟩ : ∃ output,
      valid.outputExtent input filter stride dilation = .ok output ∧
      ∀ o, o < output ↔ o * stride + coverage filter dilation ≤ input :=
    ⟨_, valid.outputExtent_eq hstep hcovered, fun o => lt_windows_valid_iff hstride⟩
  have hfitting : {o : ℕ | o * stride + coverage filter dilation ≤ input} = Set.Iio output := by
    ext o
    exact (hcount o).symm
  have htaps : ∀ o < output, ∀ f < filter, o * stride + f * dilation < input := by
    intro o ho f hf
    have hwindow := (hcount o).mp ho
    have htap : f * dilation < coverage filter dilation := tap_lt_coverage hf
    omega
  refine ⟨output, hextent, hfitting, ?_, ?_, htaps, ?_, ?_⟩
  · change Nat.card {o : ℕ | o * stride + coverage filter dilation ≤ input} = output
    rw [hfitting]
    simp
  · rcases Nat.eq_zero_or_pos output with rfl | hpos
    · rfl
    · -- the last window ends inside the input, so nothing is missing
      have hlast := (hcount (output - 1)).mp (by omega)
      rw [leadingPadding_eq (by omega), if_neg hpos.ne', Nat.sub_eq_zero_of_le hlast]
  · by_contra hfits
    exact lt_irrefl output ((hcount output).mpr (not_lt.mp hfits))
  · rintro axis rfl rfl hpadding hinput o ho f hf
    exact Axis.under_unpadded hpadding hinput (htaps o ho f hf)

/-- A filter of three taps over seven elements: two windows fit, and they end with the input. -/
theorem valid_windows_fit_dilated :
    coverage 3 2 < Checked.sizeBound ∧
      valid.outputExtent 7 3 2 2 = .ok 2 ∧
      Nat.card {o : ℕ // o * 2 + coverage 3 2 ≤ 7} = 2 ∧
      leadingPadding 2 2 7 3 2 = .ok 0 ∧ ∀ o < 2, ∀ f < 3, o * 2 + f * 2 < 7 := by
  have hcovered : coverage 3 2 < Checked.sizeBound := by decide
  obtain ⟨output, hextent, -, hcard, hpadding, htaps, -⟩ :=
    valid_windows_fit 7 3 2 2 (by decide) (by decide) hcovered
  have houtput : output = 2 := by
    have hvalue : valid.outputExtent 7 3 2 2 = .ok 2 := by decide
    rw [hvalue] at hextent
    cases hextent
    rfl
  subst houtput
  exact ⟨hcovered, hextent, hcard, hpadding, htaps⟩

/-- **With padding, the windows cover the whole input and are balanced.** For a filter that is not
dilated and no shorter than the stride, there is a window for each stride that begins inside the input.
What the windows have too much is padding, half of it in front and half of it behind, an odd element
behind. Every element of the input is under some tap, and no window lies in the padding alone. -/
theorem same_windows_cover (input filter stride : ℕ) (hinput : 1 ≤ input) (hstride : 1 ≤ stride)
    (hfilter : stride ≤ filter) (hstep : input + stride < Checked.sizeBound)
    (hreach : input + filter < Checked.sizeBound) :
    ∃ output padding : ℕ,
      same.outputExtent input filter stride 1 = .ok output ∧
      leadingPadding stride 1 input filter output = .ok padding ∧
      output = ⌈(input : ℚ) / stride⌉₊ ∧
      (((output : ℤ) - 1) * stride + filter - input - padding = padding ∨
        ((output : ℤ) - 1) * stride + filter - input - padding = padding + 1) ∧
      (∀ i < input, ∃ o < output, ∃ f < filter, (i : ℤ) = o * stride - padding + f) ∧
      ∀ o < output, ∃ f < filter,
        0 ≤ (o : ℤ) * stride - padding + f ∧ (o : ℤ) * stride - padding + f < input := by
  have hextent := same.outputExtent_eq hstep
    (show coverage filter 1 < Checked.sizeBound by rw [coverage_one]; omega)
  have hceil := windows_same_eq_ceil (coverage filter 1) input hstride
  have hcount (o : ℕ) := lt_windows_same_iff (coverage filter 1) input o hstride
  obtain ⟨last, hlast, hstart, hend⟩ := exists_last_window (coverage filter 1) hinput hstride
  rw [hlast] at hextent hceil hcount
  obtain ⟨excess, hexcess⟩ : ∃ excess, last * stride + filter = input + excess :=
    ⟨last * stride + filter - input, by omega⟩
  have hleading : leadingPadding stride 1 input filter (last + 1) = .ok (excess / 2) := by
    have hneeded : (last + 1 - 1) * stride + coverage filter 1 = input + excess := by
      rw [coverage_one, Nat.add_sub_cancel, hexcess]
    rw [leadingPadding_eq (by omega), if_neg (Nat.succ_ne_zero last), hneeded,
      Nat.add_sub_cancel_left]
  refine ⟨last + 1, excess / 2, hextent, hleading, hceil, ?_, ?_, ?_⟩
  · have htotal : ((last + 1 : ℕ) - 1 : ℤ) * stride + filter - input = excess := by
      push_cast
      rw [add_sub_cancel_right]
      have : (last : ℤ) * stride + filter = input + excess := by exact_mod_cast hexcess
      omega
    omega
  · intro i hi
    obtain ⟨o, ho, f, hf, hplace⟩ := exists_window_over hstride hfilter
      (show i + excess / 2 < last * stride + filter by omega)
    refine ⟨o, ho, f, hf, ?_⟩
    have hplace' : ((i + excess / 2 : ℕ) : ℤ) = o * stride + f := by exact_mod_cast hplace
    omega
  · intro o ho
    -- the tap behind the padding lies over the element at which the stride begins
    have hinside := (hcount o).mp ho
    refine ⟨excess / 2, by omega, ?_⟩
    have hinside' : (o : ℤ) * stride < input := by exact_mod_cast hinside
    have hnonneg : (0 : ℤ) ≤ o * stride := by positivity
    omega

/-- Three windows over eight elements, with one element of padding in front and two behind. -/
theorem same_windows_cover_unbalanced :
    same.outputExtent 8 5 3 1 = .ok 3 ∧ leadingPadding 3 1 8 5 3 = .ok 1 ∧
      3 = ⌈(8 : ℚ) / 3⌉₊ ∧
      (∀ i : ℕ, i < 8 → ∃ o : ℕ, o < 3 ∧ ∃ f : ℕ, f < 5 ∧ (i : ℤ) = o * 3 - 1 + f) ∧
      ∀ o : ℕ, o < 3 → ∃ f : ℕ, f < 5 ∧ 0 ≤ (o : ℤ) * 3 - 1 + f ∧ (o : ℤ) * 3 - 1 + f < 8 := by
  obtain ⟨output, padding, hextent, hleading, hceil, -, hcovered, htaps⟩ :=
    same_windows_cover 8 5 3 (by decide) (by decide) (by decide) (by decide) (by decide)
  have houtput : output = 3 := by
    have hvalue : same.outputExtent 8 5 3 1 = .ok 3 := by decide
    rw [hvalue] at hextent
    cases hextent
    rfl
  subst houtput
  have hpadding : padding = 1 := by
    have hvalue : leadingPadding 3 1 8 5 3 = .ok 1 := by decide
    rw [hvalue] at hleading
    cases hleading
    rfl
  subst hpadding
  exact ⟨hextent, hleading, hceil, hcovered, htaps⟩

end PaddingScheme

end QuantizedConv
