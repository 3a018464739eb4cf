import Semaforo.Detector
import Semaforo.LinearSampling
import Mathlib.Tactic

/-!
# `Detector::preprocess`

A frame is resized to the input of the model, scaled to the unit interval and
written plane by plane into the input tensor.  The resize coefficients are kept
from frame to frame and rebuilt where the frame size changes.  A read outside
the frame or outside a coefficient table has no value here.
-/

namespace Semaforo

/-- A `cv::Mat` with its bytes, three to a pixel if its type is `CV_8UC3`. -/
structure PixelFrame extends Mat where
  colour : Bool
  pixels : List (List UInt8)
  filled : colour = true → pixels.length = rows.toNat ∧
    ∀ row ∈ pixels, row.length = 3 * cols.toNat

/-- `ptr<uchar>(y)[k]`. -/
def PixelFrame.byte (frame : PixelFrame) (y k : ℤ) : Option UInt8 :=
  if 0 ≤ y ∧ 0 ≤ k then (frame.pixels[y.toNat]?).bind (·[k.toNat]?) else none

/-- `input_size`. -/
structure InputSize where
  width : ℕ
  height : ℕ
  width_pos : 0 < width
  height_pos : 0 < height

namespace Preprocessing

open LinearSampling

variable {α : Type} [Field α] [LinearOrder α] [FloorRing α]

/-- The resize coefficients and the frame size they were built for. -/
structure ResizeCoeffs (α : Type) where
  srcW : ℤ := 0
  srcH : ℤ := 0
  xIdx : List ℤ := []
  yIdx : List ℤ := []
  xW : List α := []
  yW : List α := []
  deriving DecidableEq, Repr

/-- Where the centre of output pixel `o` falls in the frame. -/
def samplePosition (src : ℤ) (dst o : ℕ) : α :=
  (o + 1 / (2 : ℕ)) * (src / dst) - 1 / (2 : ℕ)

/-- Index and weight of output pixel `o` along one axis. -/
def resizeCoeff (src : ℤ) (dst o : ℕ) : ℤ × α :=
  let f : α := samplePosition src dst o
  let x0 := ⌊f⌋
  let wx := f - x0
  let low : ℤ × α := if x0 < 0 then (0, 0) else (x0, wx)
  if src - 2 < low.1 then (src - 2, 1) else low

def buildResizeCoeffs (size : InputSize) (srcW srcH : ℤ) : ResizeCoeffs α where
  srcW := srcW
  srcH := srcH
  xIdx := (List.range size.width).map fun ox =>
    (resizeCoeff srcW size.width ox : ℤ × α).1
  xW := (List.range size.width).map fun ox => (resizeCoeff srcW size.width ox).2
  yIdx := (List.range size.height).map fun oy =>
    (resizeCoeff srcH size.height oy : ℤ × α).1
  yW := (List.range size.height).map fun oy =>
    (resizeCoeff srcH size.height oy).2

/-- The normalised blend of the four neighbours in channel `c`. -/
def blend (coeffs : ResizeCoeffs α) (frame : PixelFrame) (oy ox c : ℕ) :
    Option α := do
  let y0 ← coeffs.yIdx[oy]?
  let wy ← coeffs.yW[oy]?
  let x0 ← coeffs.xIdx[ox]?
  let wx ← coeffs.xW[ox]?
  let c0 := x0 * 3
  let c1 := c0 + 3
  let p00 : α := (← frame.byte y0 (c0 + c)).toNat
  let p01 : α := (← frame.byte y0 (c1 + c)).toNat
  let p10 : α := (← frame.byte (y0 + 1) (c0 + c)).toNat
  let p11 : α := (← frame.byte (y0 + 1) (c1 + c)).toNat
  let top := p00 + wx * (p01 - p00)
  let bot := p10 + wx * (p11 - p10)
  return (top + wy * (bot - top)) * (1 / 255)

def tensorIndex (size : InputSize) (c oy ox : ℕ) : ℕ :=
  c * (size.width * size.height) + oy * size.width + ox

/-- The output rows, columns and channels in the order of the three loops. -/
def outputs (size : InputSize) : List (ℕ × ℕ × ℕ) :=
  List.range size.height ×ˢ (List.range size.width ×ˢ List.range 3)

def writeEntry (size : InputSize) (coeffs : ResizeCoeffs α) (frame : PixelFrame)
    (tensor : List α) (output : ℕ × ℕ × ℕ) : Option (List α) := do
  let value ← blend coeffs frame output.1 output.2.1 output.2.2
  let index := tensorIndex size output.2.2 output.1 output.2.1
  if index < tensor.length then return tensor.set index value else none

/-- `std::vector::resize`. -/
def resizeTensor (n : ℕ) (tensor : List α) : List α :=
  tensor.take n ++ List.replicate (n - tensor.length) 0

/-- The coefficients and the tensor after a frame. -/
def preprocess (size : InputSize) (state : ResizeCoeffs α × List α)
    (frame : PixelFrame) : Option (ResizeCoeffs α × List α) :=
  let tensor := resizeTensor (3 * (size.width * size.height)) state.2
  if frame.empty ∨ frame.colour = false ∨ frame.cols < 2 ∨ frame.rows < 2 then
    some (state.1, tensor)
  else do
    let coeffs :=
      if frame.cols ≠ state.1.srcW ∨ frame.rows ≠ state.1.srcH then
        buildResizeCoeffs size frame.cols frame.rows
      else state.1
    let written ← (outputs size).foldlM (writeEntry size coeffs frame) tensor
    return (coeffs, written)

/-! ## Coefficients -/

structure ResizeCoeff (src : ℤ) (dst o : ℕ) (coeff : ℤ × α) : Prop where
  index_nonneg : 0 ≤ coeff.1
  neighbour_lt : coeff.1 + 1 < src
  weight_nonneg : 0 ≤ coeff.2
  weight_le_one : coeff.2 ≤ 1
  blend_eq : ∀ signal : ℕ → α,
    signal coeff.1.toNat +
        coeff.2 * (signal (coeff.1.toNat + 1) - signal coeff.1.toNat) =
      linearSample src.toNat signal (samplePosition src dst o)

theorem resizeCoeff_spec [IsStrictOrderedRing α] {src : ℤ} (hsrc : 2 ≤ src)
    (dst o : ℕ) :
    ResizeCoeff src dst o (resizeCoeff src dst o : ℤ × α) := by
  have hlength : (src.toNat : ℤ) = src := Int.toNat_of_nonneg (by omega)
  unfold resizeCoeff
  dsimp only
  by_cases hbelow : ⌊(samplePosition src dst o : α)⌋ < 0
  · rw [if_pos hbelow, if_neg (by omega)]
    exact
      { index_nonneg := le_refl 0
        neighbour_lt := by omega
        weight_nonneg := le_refl 0
        weight_le_one := zero_le_one
        blend_eq := fun signal => by
          rw [linearSample_below src.toNat signal hbelow, zero_mul, add_zero]
          rfl }
  · rw [if_neg hbelow]
    by_cases habove : src - 2 < ⌊(samplePosition src dst o : α)⌋
    · rw [if_pos habove]
      exact
        { index_nonneg := by
            change 0 ≤ src - 2
            omega
          neighbour_lt := by
            change src - 2 + 1 < src
            omega
          weight_nonneg := zero_le_one
          weight_le_one := le_refl 1
          blend_eq := fun signal => by
            have hlast : (src - 2).toNat + 1 = src.toNat - 1 := by omega
            change signal (src - 2).toNat + 1 * _ = _
            rw [linearSample_above signal (by omega), hlast, one_mul,
              add_sub_cancel] }
    · rw [if_neg habove]
      exact
        { index_nonneg := not_lt.mp hbelow
          neighbour_lt := by
            change ⌊(samplePosition src dst o : α)⌋ + 1 < src
            omega
          weight_nonneg := by
            change 0 ≤ _ - _
            rw [Int.self_sub_floor]
            exact Int.fract_nonneg _
          weight_le_one := by
            change _ - _ ≤ (1 : α)
            rw [Int.self_sub_floor]
            exact (Int.fract_lt_one _).le
          blend_eq := fun signal =>
            (linearSample_inside signal (not_lt.mp hbelow) (by omega)).symm }

/-! ## One tensor entry -/

/-- A frame that is large enough to be sampled. -/
structure Sampled (frame : PixelFrame) : Prop where
  colour : frame.colour = true
  cols : 2 ≤ frame.cols
  rows : 2 ≤ frame.rows

def channelValue (frame : PixelFrame) (c y x : ℕ) : α :=
  ((frame.byte y (x * 3 + c)).getD 0).toNat

/-- Half-pixel-centred bilinear interpolation with repeated edges. -/
def bilinear (frame : PixelFrame) (size : InputSize) (c oy ox : ℕ) : α :=
  linearSample frame.rows.toNat
    (fun y => linearSample frame.cols.toNat (channelValue frame c y)
      (samplePosition frame.cols size.width ox))
    (samplePosition frame.rows size.height oy)

theorem byte_isSome {frame : PixelFrame} (hcolour : frame.colour = true) {y k : ℤ}
    (hy : 0 ≤ y) (hrows : y < frame.rows) (hk : 0 ≤ k)
    (hcols : k < 3 * frame.cols) : (frame.byte y k).isSome = true := by
  obtain ⟨hlength, hrow⟩ := frame.filled hcolour
  have hylt : y.toNat < frame.pixels.length := by omega
  have hklt : k.toNat < (frame.pixels[y.toNat]).length := by
    rw [hrow _ (List.getElem_mem hylt)]
    omega
  unfold PixelFrame.byte
  rw [if_pos ⟨hy, hk⟩, List.getElem?_eq_getElem hylt, Option.bind_some,
    List.getElem?_eq_getElem hklt]
  rfl

/-- A read inside the frame. -/
theorem byte_eq_some {frame : PixelFrame} (hframe : Sampled frame) {y x : ℕ}
    {c : ℕ} (hy : (y : ℤ) < frame.rows) (hx : (x : ℤ) < frame.cols)
    (hc : c < 3) :
    frame.byte y (x * 3 + c) =
      some ((frame.byte y (x * 3 + c)).getD 0) := by
  have hsome := byte_isSome hframe.colour (y := y) (k := x * 3 + c)
    (by omega) hy (by omega) (by omega)
  obtain ⟨b, hb⟩ := Option.isSome_iff_exists.mp hsome
  rw [hb]
  rfl

theorem getElem?_map_range {β : Type} (f : ℕ → β) {n i : ℕ} (hi : i < n) :
    ((List.range n).map f)[i]? = some (f i) := by
  rw [List.getElem?_map, List.getElem?_range hi]
  rfl

theorem blend_eq [IsStrictOrderedRing α] {frame : PixelFrame}
    (hframe : Sampled frame) (size : InputSize) {oy ox c : ℕ}
    (hoy : oy < size.height) (hox : ox < size.width) (hc : c < 3) :
    blend (buildResizeCoeffs size frame.cols frame.rows : ResizeCoeffs α)
      frame oy ox c = some (bilinear frame size c oy ox * (1 / 255)) := by
  have hx := resizeCoeff_spec (α := α) hframe.cols size.width ox
  have hy := resizeCoeff_spec (α := α) hframe.rows size.height oy
  generalize hxc : (resizeCoeff frame.cols size.width ox : ℤ × α) = xc at hx
  generalize hyc : (resizeCoeff frame.rows size.height oy : ℤ × α) = yc at hy
  obtain ⟨x0, wx⟩ := xc
  obtain ⟨y0, wy⟩ := yc
  have hx0 := hx.index_nonneg
  have hx1 := hx.neighbour_lt
  have hy0 := hy.index_nonneg
  have hy1 := hy.neighbour_lt
  have hblendx := hx.blend_eq
  have hblendy := hy.blend_eq
  dsimp only at hx0 hx1 hy0 hy1 hblendx hblendy
  lift x0 to ℕ using hx0
  lift y0 to ℕ using hy0
  rw [Int.toNat_natCast] at hblendx hblendy
  have hp00 := byte_eq_some hframe (y := y0) (x := x0) (c := c) (by omega)
    (by omega) hc
  have hp01 := byte_eq_some hframe (y := y0) (x := x0 + 1) (c := c) (by omega)
    (by omega) hc
  have hp10 := byte_eq_some hframe (y := y0 + 1) (x := x0) (c := c) (by omega)
    (by omega) hc
  have hp11 := byte_eq_some hframe (y := y0 + 1) (x := x0 + 1) (c := c)
    (by omega) (by omega) hc
  have hshift : (x0 : ℤ) * 3 + 3 + c = (x0 + 1 : ℕ) * 3 + c := by
    push_cast
    ring
  have hdown : (y0 : ℤ) + 1 = (y0 + 1 : ℕ) := by
    push_cast
    ring
  unfold blend buildResizeCoeffs
  dsimp only
  rw [getElem?_map_range _ hoy, getElem?_map_range _ hoy,
    getElem?_map_range _ hox, getElem?_map_range _ hox, hxc, hyc]
  simp only [Option.bind_eq_bind, Option.bind_some, hshift, hdown]
  rw [hp00, hp01, hp10, hp11]
  simp only [Option.bind_some, Option.pure_def, Option.some.injEq]
  congr 1
  unfold bilinear
  rw [← hblendy, ← hblendx, ← hblendx]
  rfl

theorem bilinear_mem [IsStrictOrderedRing α] (frame : PixelFrame)
    (size : InputSize) (c oy ox : ℕ) :
    (0 : α) ≤ bilinear frame size c oy ox ∧
      bilinear frame size c oy ox ≤ (255 : α) := by
  have hlo : ∀ y x, (0 : α) ≤ channelValue frame c y x := by
    intro y x
    exact Nat.cast_nonneg _
  have hhi : ∀ y x, channelValue frame c y x ≤ (255 : α) := by
    intro y x
    have hbyte : ((frame.byte y (x * 3 + c)).getD 0).toNat ≤ 255 :=
      Nat.le_of_lt_succ (UInt8.toNat_lt _)
    unfold channelValue
    exact_mod_cast hbyte
  exact linearSample_mem _
    (fun y => (linearSample_mem _ (hlo y) (hhi y) _).1)
    (fun y => (linearSample_mem _ (hlo y) (hhi y) _).2) _

theorem entry_mem [IsStrictOrderedRing α] (frame : PixelFrame)
    (size : InputSize) (c oy ox : ℕ) :
    (0 : α) ≤ bilinear frame size c oy ox * (1 / 255) ∧
      bilinear frame size c oy ox * (1 / 255) ≤ (1 : α) := by
  have hmem := bilinear_mem (α := α) frame size c oy ox
  constructor
  · exact mul_nonneg hmem.1 (by norm_num)
  · calc
      bilinear frame size c oy ox * (1 / 255) ≤ (255 : α) * (1 / 255) :=
        mul_le_mul_of_nonneg_right hmem.2 (by norm_num)
      _ = 1 := by norm_num

/-! ## The three loops -/

structure InRange (size : InputSize) (output : ℕ × ℕ × ℕ) : Prop where
  row : output.1 < size.height
  column : output.2.1 < size.width
  channel : output.2.2 < 3

theorem mem_outputs {size : InputSize} {output : ℕ × ℕ × ℕ} :
    output ∈ outputs size ↔ InRange size output := by
  obtain ⟨oy, ox, c⟩ := output
  unfold outputs
  rw [List.mem_product, List.mem_product, List.mem_range, List.mem_range,
    List.mem_range]
  constructor
  · intro h
    exact ⟨h.1, h.2.1, h.2.2⟩
  · intro h
    exact ⟨h.row, h.column, h.channel⟩

def position (size : InputSize) (output : ℕ × ℕ × ℕ) : ℕ :=
  tensorIndex size output.2.2 output.1 output.2.1

theorem position_eq (size : InputSize) (output : ℕ × ℕ × ℕ) :
    position size output =
      (output.2.2 * size.height + output.1) * size.width + output.2.1 := by
  unfold position tensorIndex
  ring

theorem InRange.position_lt {size : InputSize} {output : ℕ × ℕ × ℕ}
    (h : InRange size output) :
    position size output < 3 * (size.width * size.height) := by
  have hrow := h.row
  have hcolumn := h.column
  have hchannel := h.channel
  rw [position_eq]
  calc
    (output.2.2 * size.height + output.1) * size.width + output.2.1 <
        (output.2.2 * size.height + output.1 + 1) * size.width := by
      rw [Nat.succ_mul]
      omega
    _ ≤ (2 * size.height + size.height) * size.width := by
      apply Nat.mul_le_mul_right
      have hplanes : output.2.2 * size.height ≤ 2 * size.height :=
        Nat.mul_le_mul_right _ (by omega)
      omega
    _ = 3 * (size.width * size.height) := by ring

theorem position_injective {size : InputSize} {a b : ℕ × ℕ × ℕ}
    (ha : InRange size a) (hb : InRange size b)
    (heq : position size a = position size b) : a = b := by
  have hdivmod : ∀ {n q r q' r' : ℕ}, r < n → r' < n →
      q * n + r = q' * n + r' → q = q' ∧ r = r' := by
    intro n q r q' r' hr hr' hsum
    have hmod : (q * n + r) % n = (q' * n + r') % n := by rw [hsum]
    rw [Nat.mul_add_mod', Nat.mul_add_mod', Nat.mod_eq_of_lt hr,
      Nat.mod_eq_of_lt hr'] at hmod
    subst hmod
    refine ⟨Nat.eq_of_mul_eq_mul_right (by omega : 0 < n) ?_, rfl⟩
    omega
  rw [position_eq, position_eq] at heq
  obtain ⟨hrows, hcolumn⟩ := hdivmod ha.column hb.column heq
  obtain ⟨hchannel, hrow⟩ := hdivmod ha.row hb.row hrows
  exact Prod.ext hrow (Prod.ext hcolumn hchannel)

/-- The entries of the outputs in `done` have been written. -/
def Written (size : InputSize) (value : ℕ × ℕ × ℕ → α)
    (done : List (ℕ × ℕ × ℕ)) (tensor : List α) : Prop :=
  tensor.length = 3 * (size.width * size.height) ∧
    ∀ output ∈ done, tensor[position size output]? = some (value output)

omit [Field α] [LinearOrder α] [FloorRing α] in
theorem Written.set {size : InputSize} {value : ℕ × ℕ × ℕ → α}
    {done : List (ℕ × ℕ × ℕ)} {tensor : List α}
    (h : Written size value done tensor)
    (hdone : ∀ output ∈ done, InRange size output) {output : ℕ × ℕ × ℕ}
    (houtput : InRange size output) :
    Written size value (done ++ [output])
      (tensor.set (position size output) (value output)) := by
  have hlt : position size output < tensor.length := by
    rw [h.1]
    exact houtput.position_lt
  constructor
  · rw [List.length_set]
    exact h.1
  · intro other hother
    rcases List.mem_append.mp hother with hold | hnew
    · by_cases heq : position size output = position size other
      · rw [position_injective houtput (hdone other hold) heq,
          List.getElem?_set_self (heq ▸ hlt)]
      · rw [List.getElem?_set_ne heq]
        exact h.2 other hold
    · rw [List.mem_singleton.mp hnew, List.getElem?_set_self hlt]

theorem writeEntry_eq [IsStrictOrderedRing α] {frame : PixelFrame}
    (hframe : Sampled frame) {size : InputSize} {tensor : List α}
    (hlength : tensor.length = 3 * (size.width * size.height))
    {output : ℕ × ℕ × ℕ} (houtput : InRange size output) :
    writeEntry size (buildResizeCoeffs size frame.cols frame.rows) frame
      tensor output =
      some (tensor.set (position size output)
        (bilinear frame size output.2.2 output.1 output.2.1 *
          (1 / 255))) := by
  have hlt : position size output < tensor.length := by
    rw [hlength]
    exact houtput.position_lt
  unfold writeEntry
  rw [blend_eq hframe size houtput.row houtput.column houtput.channel]
  change (if position size output < tensor.length then _ else none) = _
  rw [if_pos hlt]
  rfl

theorem loops_written [IsStrictOrderedRing α] {frame : PixelFrame}
    (hframe : Sampled frame) (size : InputSize) :
    ∀ (remaining done : List (ℕ × ℕ × ℕ)) (tensor : List α),
      (∀ output ∈ done, InRange size output) →
      (∀ output ∈ remaining, InRange size output) →
      Written size (fun output =>
        bilinear frame size output.2.2 output.1 output.2.1 * (1 / 255))
        done tensor →
      ∃ written,
        remaining.foldlM (writeEntry size
          (buildResizeCoeffs size frame.cols frame.rows) frame) tensor =
          some written ∧
        Written size (fun output =>
          bilinear frame size output.2.2 output.1 output.2.1 * (1 / 255))
          (done ++ remaining) written := by
  intro remaining
  induction remaining with
  | nil =>
      intro done tensor _ _ hwritten
      rw [List.append_nil]
      exact ⟨tensor, rfl, hwritten⟩
  | cons output rest ih =>
      intro done tensor hdone hremaining hwritten
      have houtput := hremaining output (List.mem_cons_self ..)
      have hnext := hwritten.set hdone houtput
      have hdone' : ∀ other ∈ done ++ [output], InRange size other := by
        intro other hother
        rcases List.mem_append.mp hother with hold | hnew
        · exact hdone other hold
        · rw [List.mem_singleton.mp hnew]
          exact houtput
      obtain ⟨written, hrun, hresult⟩ := ih (done ++ [output]) _ hdone'
        (fun other hother =>
          hremaining other (List.mem_cons_of_mem output hother)) hnext
      refine ⟨written, ?_, ?_⟩
      · rw [List.foldlM_cons, writeEntry_eq hframe hwritten.1 houtput]
        exact hrun
      · rw [List.append_assoc] at hresult
        exact hresult

/-! ## Frame after frame -/

/-- The tables are those of the frame size they are labelled with. -/
def Cached (size : InputSize) (coeffs : ResizeCoeffs α) : Prop :=
  coeffs = {} ∨ coeffs = buildResizeCoeffs size coeffs.srcW coeffs.srcH

/-- The coefficients that are used for a frame. -/
theorem Cached.current {size : InputSize} {coeffs : ResizeCoeffs α}
    (h : Cached size coeffs) {frame : PixelFrame} (hframe : Sampled frame) :
    (if frame.cols ≠ coeffs.srcW ∨ frame.rows ≠ coeffs.srcH then
        buildResizeCoeffs size frame.cols frame.rows
      else coeffs) = buildResizeCoeffs size frame.cols frame.rows := by
  have hcols := hframe.cols
  split_ifs with hchanged
  · rfl
  · obtain ⟨hsameCols, hsameRows⟩ := not_or.mp hchanged
    rw [not_not] at hsameCols hsameRows
    cases h with
    | inl hfresh =>
        rw [hfresh] at hsameCols
        change frame.cols = 0 at hsameCols
        omega
    | inr hbuilt =>
        rw [hsameCols, hsameRows]
        exact hbuilt

omit [LinearOrder α] [FloorRing α] in
theorem length_resizeTensor (n : ℕ) (tensor : List α) :
    (resizeTensor n tensor).length = n := by
  unfold resizeTensor
  rw [List.length_append, List.length_take, List.length_replicate]
  omega

/-- What the detector holds after a frame has been sampled. -/
structure Preprocessed (size : InputSize) (frame : PixelFrame)
    (coeffs : ResizeCoeffs α) (tensor : List α) : Prop where
  columns : ∀ ox < size.width, ∃ x0 wx, coeffs.xIdx[ox]? = some x0 ∧
    coeffs.xW[ox]? = some wx ∧ 0 ≤ x0 ∧ x0 + 1 < frame.cols ∧ 0 ≤ wx ∧ wx ≤ 1
  rows : ∀ oy < size.height, ∃ y0 wy, coeffs.yIdx[oy]? = some y0 ∧
    coeffs.yW[oy]? = some wy ∧ 0 ≤ y0 ∧ y0 + 1 < frame.rows ∧ 0 ≤ wy ∧ wy ≤ 1
  length : tensor.length = 3 * (size.width * size.height)
  entries : ∀ c < 3, ∀ oy < size.height, ∀ ox < size.width, ∃ value,
    tensor[tensorIndex size c oy ox]? = some value ∧
    0 ≤ value ∧ value ≤ 1 ∧
    value = 1 / 255 * bilinear frame size c oy ox

theorem preprocess_sampled [IsStrictOrderedRing α] {size : InputSize}
    {coeffs : ResizeCoeffs α} (hcached : Cached size coeffs)
    (tensor : List α) {frame : PixelFrame} (hframe : Sampled frame) :
    ∃ written,
      preprocess size (coeffs, tensor) frame =
        some (buildResizeCoeffs size frame.cols frame.rows, written) ∧
      Preprocessed size frame
        (buildResizeCoeffs size frame.cols frame.rows) written := by
  have hcols := hframe.cols
  have hrows := hframe.rows
  have hgate : ¬ (frame.empty = true ∨ frame.colour = false ∨
      frame.cols < 2 ∨ frame.rows < 2) := by
    have hempty : frame.empty = false := by
      simp [Mat.empty, show 0 < frame.cols by omega,
        show 0 < frame.rows by omega]
    rw [hempty, hframe.colour]
    simp
    omega
  obtain ⟨written, hrun, hlength, hwritten⟩ := loops_written hframe size
    (outputs size) [] (resizeTensor (3 * (size.width * size.height)) tensor)
    (by simp) (fun output houtput => mem_outputs.mp houtput)
    ⟨length_resizeTensor _ tensor, by simp⟩
  refine ⟨written, ?_, ?_, ?_, hlength, ?_⟩
  · unfold preprocess
    dsimp only
    rw [if_neg hgate, hcached.current hframe, hrun]
    rfl
  · intro ox hox
    have hspec := resizeCoeff_spec (α := α) hcols size.width ox
    exact ⟨_, _, getElem?_map_range _ hox, getElem?_map_range _ hox,
      hspec.index_nonneg, hspec.neighbour_lt, hspec.weight_nonneg,
      hspec.weight_le_one⟩
  · intro oy hoy
    have hspec := resizeCoeff_spec (α := α) hrows size.height oy
    exact ⟨_, _, getElem?_map_range _ hoy, getElem?_map_range _ hoy,
      hspec.index_nonneg, hspec.neighbour_lt, hspec.weight_nonneg,
      hspec.weight_le_one⟩
  · intro c hc oy hoy ox hox
    have hentry := hwritten (oy, ox, c)
      (mem_outputs.mpr ⟨hoy, hox, hc⟩)
    have hmem := entry_mem (α := α) frame size c oy ox
    exact ⟨_, hentry, hmem.1, hmem.2, mul_comm _ _⟩

theorem preprocess_cached [IsStrictOrderedRing α] {size : InputSize}
    {state : ResizeCoeffs α × List α} (hcached : Cached size state.1)
    (frame : PixelFrame) :
    ∃ after, preprocess size state frame = some after ∧
      Cached size after.1 := by
  by_cases hframe : Sampled frame
  · obtain ⟨written, hrun, _⟩ :=
      preprocess_sampled hcached state.2 hframe
    exact ⟨_, hrun, Or.inr rfl⟩
  · have hgate : frame.empty = true ∨ frame.colour = false ∨
        frame.cols < 2 ∨ frame.rows < 2 := by
      by_contra hopen
      simp only [not_or, Bool.not_eq_false, not_lt] at hopen
      exact hframe ⟨hopen.2.1, hopen.2.2.1, hopen.2.2.2⟩
    refine ⟨(state.1, resizeTensor (3 * (size.width * size.height)) state.2),
      ?_, hcached⟩
    unfold preprocess
    exact if_pos hgate

/-- The frames one after the other, from the construction of the detector. -/
def preprocessAll (size : InputSize) (tensor : List α) (frames : List PixelFrame) :
    Option (ResizeCoeffs α × List α) :=
  frames.foldlM (preprocess size) ({}, tensor)

theorem preprocessAll_cached [IsStrictOrderedRing α] (size : InputSize) :
    ∀ (frames : List PixelFrame) (state : ResizeCoeffs α × List α),
      Cached size state.1 →
      ∃ after, frames.foldlM (preprocess size) state = some after ∧
        Cached size after.1 := by
  intro frames
  induction frames with
  | nil =>
      intro state hcached
      exact ⟨state, rfl, hcached⟩
  | cons frame rest ih =>
      intro state hcached
      obtain ⟨next, hnext, hcached'⟩ := preprocess_cached hcached frame
      obtain ⟨after, hafter, hresult⟩ := ih next hcached'
      refine ⟨after, ?_, hresult⟩
      rw [List.foldlM_cons, hnext]
      exact hafter

/-- After any frames the next one that can be sampled is read within its
bounds with weights in the unit interval, and every entry of the tensor is the
normalised bilinear sample of that frame. -/
theorem preprocessAll_bilinear [IsStrictOrderedRing α] (size : InputSize)
    (tensor : List α) (frames : List PixelFrame) (frame : PixelFrame)
    (hcolour : frame.colour = true) (hcols : 2 ≤ frame.cols)
    (hrows : 2 ≤ frame.rows) :
    ∃ coeffs written,
      preprocessAll size tensor (frames ++ [frame]) = some (coeffs, written) ∧
      Preprocessed size frame coeffs written := by
  obtain ⟨before, hbefore, hcached⟩ := preprocessAll_cached (α := α) size
    frames ({}, tensor) (Or.inl rfl)
  obtain ⟨written, hrun, hresult⟩ := preprocess_sampled hcached before.2
    ⟨hcolour, hcols, hrows⟩
  refine ⟨_, written, ?_, hresult⟩
  unfold preprocessAll
  rw [List.foldlM_append, hbefore]
  rw [Option.bind_eq_bind, Option.bind_some, List.foldlM_cons, hrun]
  rfl

def greyFrame : PixelFrame where
  cols := 2
  rows := 2
  colour := true
  pixels := List.replicate 2 (List.replicate 6 128)
  filled := by
    intro _
    exact ⟨rfl, by decide⟩

def wideFrame : PixelFrame where
  cols := 3
  rows := 2
  colour := true
  pixels := List.replicate 2 (List.replicate 9 7)
  filled := by
    intro _
    exact ⟨rfl, by decide⟩

theorem greyFrame_after_wideFrame :
    ∃ coeffs written,
      preprocessAll ⟨1, 1, one_pos, one_pos⟩ ([] : List ℚ)
        ([wideFrame] ++ [greyFrame]) = some (coeffs, written) ∧
      Preprocessed ⟨1, 1, one_pos, one_pos⟩ greyFrame coeffs written :=
  preprocessAll_bilinear ⟨1, 1, one_pos, one_pos⟩ [] [wideFrame] greyFrame rfl
    (by decide) (by decide)

end Preprocessing

end Semaforo
