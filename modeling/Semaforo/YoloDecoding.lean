import Semaforo.BufferAccess
import Semaforo.Detector
import Mathlib.Tactic

/-!
# Decoding the model output

`Detector::decode_yolo_output` as the machine runs it: the header in 64-bit
integers, the buffer behind a pointer, every index computed in unsigned 64-bit
arithmetic.  The run delivers what `decodeYoloOutput` computes over checked
indices, and reads nothing where the header is rejected.
-/

namespace Semaforo

open BufferAccess

namespace YoloDecoding

section Machine

variable {α : Type} [IntCast α] [Sub α] [Mul α] [Div α] [LT α] [LE α]
  [DecidableLT α] [DecidableLE α]

/-- `data[row * anchors + i]`. -/
def loadChannel (anchors row i : ℕ) : Routine α α := do
  let start ← Routine.mulU64 row anchors
  let index ← Routine.addU64 start i
  Routine.load index

def scanClass (anchors i : ℕ) (best : α × ℤ) (c : ℕ) : Routine α (α × ℤ) := do
  let row ← Routine.addU64 4 c
  let score ← loadChannel anchors row i
  return if best.1 < score then (score, (c : ℤ)) else best

/-- One round of the loop over the anchors. -/
def decodeRound (anchors classes : ℕ) (confThreshold scaleX scaleY : α)
    (out : List (Detection α)) (i : ℕ) : Routine α (List (Detection α)) := do
  let best ← (List.range classes).foldlM (scanClass anchors i)
    (((0 : ℤ) : α), -1)
  if confThreshold ≤ best.1 ∧ isVehicle best.2 then
    let two : α := ((2 : ℤ) : α)
    let cx ← loadChannel anchors 0 i
    let cy ← loadChannel anchors 1 i
    let w ← loadChannel anchors 2 i
    let h ← loadChannel anchors 3 i
    return out ++
      [{ classId := best.2
         confidence := best.1
         bbox :=
           { x := (cx - w / two) * scaleX
             y := (cy - h / two) * scaleY
             width := w * scaleX
             height := h * scaleY } }]
  else return out

/-- `kMaxDim`. -/
def kMaxDim : Int64 := (1 : Int64) <<< (24 : Int64)

def decodeTensor (dataLen : ℕ) (shape : List Int64)
    (frameW frameH inputW inputH : ℤ) (confThreshold : α) :
    Routine α (Bool × List (Detection α)) :=
  match shape with
  | [batch, channels, numAnchors] =>
      if batch ≠ 1 then return (false, [])
      else if channels ≤ 4 ∨ numAnchors ≤ 0 then return (false, [])
      else if inputW ≤ 0 ∨ inputH ≤ 0 then return (false, [])
      else if kMaxDim < channels ∨ kMaxDim < numAnchors then return (false, [])
      else do
        let required ← Routine.mulU64 channels.toUInt64.toNat
          numAnchors.toUInt64.toNat
        if dataLen < required then return (false, [])
        else do
          let out ← (List.range numAnchors.toUInt64.toNat).foldlM
            (decodeRound numAnchors.toUInt64.toNat
              (channels - 4).toUInt64.toNat confThreshold
              ((frameW : α) / (inputW : α)) ((frameH : α) / (inputH : α))) []
          return (true, out)
  | _ => return (false, [])

/-- A call with the pointers `data` and `shape`, either of which may be null.
What the run returns and what it leaves in `out`. -/
def decode (data : Option (List α)) (dataLen : ℕ) (shape : Option (List Int64))
    (frameW frameH inputW inputH : ℤ) (confThreshold : α) :
    Run (Bool × List (Detection α)) :=
  match data, shape with
  | some data, some shape =>
      decodeTensor dataLen shape frameW frameH inputW inputH confThreshold data
  | _, _ => ⟨[], some (false, [])⟩

end Machine

/-! ## The header -/

theorem le_four_iff (z : Int64) : z ≤ 4 ↔ z.toInt ≤ 4 := by
  rw [Int64.le_iff_toInt_le]
  rfl

theorem le_zero_iff (z : Int64) : z ≤ 0 ↔ z.toInt ≤ 0 := by
  rw [Int64.le_iff_toInt_le]
  rfl

theorem kMaxDim_lt_iff (z : Int64) : kMaxDim < z ↔ maxDim < z.toInt := by
  rw [Int64.lt_iff_toInt_lt]
  rfl

theorem ne_one_iff (z : Int64) : z ≠ 1 ↔ z.toInt ≠ 1 := by
  rw [not_iff_not, ← Int64.toInt_inj]
  rfl

theorem toNat_toUInt64 {z : Int64} (hz : 0 ≤ z.toInt) :
    z.toUInt64.toNat = z.toInt.toNat := by
  have hle : (0 : Int64) ≤ z := by
    rw [Int64.le_iff_toInt_le]
    exact hz
  rw [Int64.toNat_toUInt64_of_le hle, Int64.toNat_toInt]

theorem toInt_sub_four {z : Int64} (hz : 4 < z.toInt) :
    (z - 4).toInt = z.toInt - 4 := by
  have hupper : z.toInt < 2 ^ 63 := z.toInt_lt
  rw [Int64.toInt_sub]
  change (z.toInt - 4).bmod (2 ^ 64) = z.toInt - 4
  apply Int.bmod_eq_of_le
  · omega
  · omega

theorem toNat_sub_four {z : Int64} (hz : 4 < z.toInt) :
    (z - 4).toUInt64.toNat = z.toInt.toNat - 4 := by
  have hsub := toInt_sub_four hz
  rw [toNat_toUInt64 (by omega), hsub]
  omega

/-! ## The run over the buffer -/

section Refinement

variable {α : Type} [IntCast α] [Sub α] [Mul α] [Div α] [LT α] [LE α]
  [DecidableLT α] [DecidableLE α]

/-- The header bounds that keep every index far below `2 ^ 64`. -/
structure Bounded {dataLen : ℕ} (g : YoloGeometry dataLen) : Prop where
  channels : g.channels ≤ 2 ^ 24
  numAnchors : g.numAnchors ≤ 2 ^ 24

theorem Bounded.index_small {dataLen : ℕ} {g : YoloGeometry dataLen}
    (hg : Bounded g) {k : ℕ} (hk : k < g.channels) (i : Fin g.numAnchors) :
    k * g.numAnchors + i < 2 ^ 64 := by
  have hrow : k * g.numAnchors ≤ 2 ^ 24 * 2 ^ 24 :=
    Nat.mul_le_mul (Nat.le_trans hk.le hg.channels) hg.numAnchors
  have hi : (i : ℕ) < 2 ^ 24 := Nat.lt_of_lt_of_le i.isLt hg.numAnchors
  omega

omit [IntCast α] [Sub α] [Mul α] [Div α] [LT α] [LE α] [DecidableLT α]
  [DecidableLE α] in
theorem loadChannel_delivers {data : List α} {g : YoloGeometry data.length}
    (hg : Bounded g) {k : ℕ} (hk : k < g.channels) (i : Fin g.numAnchors) :
    (loadChannel g.numAnchors k i).Delivers data (g.value k hk i) := by
  have hindex := hg.index_small hk i
  apply Routine.Delivers.bind (Routine.Delivers.mulU64 data (by omega))
  apply Routine.Delivers.bind (Routine.Delivers.addU64 data hindex)
  exact Routine.Delivers.load (g.index_lt hk i)

omit [Sub α] [Mul α] [Div α] [LE α] [DecidableLE α] in
theorem bestClass_delivers {data : List α} {g : YoloGeometry data.length}
    (hg : Bounded g) (i : Fin g.numAnchors) :
    Routine.Delivers
      ((List.range (g.channels - 4)).foldlM (scanClass g.numAnchors i)
        (((0 : ℤ) : α), -1)) data (bestClass g i) := by
  have hchannels := hg.channels
  rw [← List.map_coe_finRange_eq_range, List.foldlM_map]
  apply Routine.Delivers.foldlM
  intro best c _
  have hrow : 4 + (c : ℕ) < g.channels := Nat.add_lt_of_lt_sub' c.isLt
  apply Routine.Delivers.bind (Routine.Delivers.addU64 data (by omega))
  apply Routine.Delivers.bind (loadChannel_delivers hg hrow i)
  exact Routine.Delivers.pure data _

theorem decodeRound_delivers {data : List α} {g : YoloGeometry data.length}
    (hg : Bounded g) (confThreshold scaleX scaleY : α)
    (out : List (Detection α)) (i : Fin g.numAnchors) :
    (decodeRound g.numAnchors (g.channels - 4) confThreshold scaleX scaleY out
      i).Delivers data
      (out ++ (decodeAnchor g confThreshold scaleX scaleY i).toList) := by
  have hclasses := g.has_classes
  apply Routine.Delivers.bind (bestClass_delivers hg i)
  unfold decodeAnchor
  by_cases hkeep : confThreshold ≤ (bestClass g i).1 ∧
      isVehicle (bestClass g i).2
  · simp only [if_pos hkeep]
    apply Routine.Delivers.bind
      (loadChannel_delivers hg (k := 0) (by omega) i)
    apply Routine.Delivers.bind
      (loadChannel_delivers hg (k := 1) (by omega) i)
    apply Routine.Delivers.bind
      (loadChannel_delivers hg (k := 2) (by omega) i)
    apply Routine.Delivers.bind
      (loadChannel_delivers hg (k := 3) (by omega) i)
    exact Routine.Delivers.pure data _
  · simp only [if_neg hkeep, Option.toList_none, List.append_nil]
    exact Routine.Delivers.pure data _

theorem foldl_append_toList {ι β : Type} (f : ι → Option β) :
    ∀ (indices : List ι) (out : List β),
      indices.foldl (fun out i => out ++ (f i).toList) out =
        out ++ indices.filterMap f := by
  intro indices
  induction indices with
  | nil =>
      intro out
      simp
  | cons i rest ih =>
      intro out
      rw [List.foldl_cons, ih, List.filterMap_cons]
      cases f i with
      | none => simp
      | some b => simp

theorem loop_delivers {data : List α} {g : YoloGeometry data.length}
    (hg : Bounded g) (confThreshold scaleX scaleY : α) :
    Routine.Delivers
      ((List.range g.numAnchors).foldlM
        (decodeRound g.numAnchors (g.channels - 4) confThreshold scaleX
          scaleY) []) data
      ((List.finRange g.numAnchors).filterMap
        (decodeAnchor g confThreshold scaleX scaleY)) := by
  have hfold := foldl_append_toList
    (decodeAnchor g confThreshold scaleX scaleY)
    (List.finRange g.numAnchors) []
  rw [List.nil_append] at hfold
  rw [← hfold, ← List.map_coe_finRange_eq_range, List.foldlM_map]
  apply Routine.Delivers.foldlM
  intro out i _
  exact decodeRound_delivers hg confThreshold scaleX scaleY out i

end Refinement

/-- What the header has to say for the buffer to be read at all. -/
structure Header (dataLen : ℕ) (batch channels numAnchors inputW inputH : ℤ) :
    Prop where
  single : batch = 1
  channels_lower : 5 ≤ channels
  channels_upper : channels ≤ maxDim
  anchors_lower : 1 ≤ numAnchors
  anchors_upper : numAnchors ≤ maxDim
  width : 0 < inputW
  height : 0 < inputH
  fits : channels * numAnchors ≤ dataLen

theorem Header.toNat_fits {dataLen : ℕ} {batch channels numAnchors : ℤ}
    {inputW inputH : ℤ}
    (h : Header dataLen batch channels numAnchors inputW inputH) :
    channels.toNat * numAnchors.toNat ≤ dataLen := by
  have hchannels := h.channels_lower
  have hanchors := h.anchors_lower
  have hcast : ((channels.toNat * numAnchors.toNat : ℕ) : ℤ) ≤ dataLen := by
    rw [Nat.cast_mul, Int.toNat_of_nonneg (by omega),
      Int.toNat_of_nonneg (by omega)]
    exact h.fits
  exact_mod_cast hcast

def Header.geometry {dataLen : ℕ} {batch channels numAnchors : ℤ}
    {inputW inputH : ℤ}
    (h : Header dataLen batch channels numAnchors inputW inputH) :
    YoloGeometry dataLen where
  channels := channels.toNat
  numAnchors := numAnchors.toNat
  has_classes := (Int.lt_toNat).mpr (Int.lt_of_lt_of_le (by decide)
    h.channels_lower)
  fits := h.toNat_fits

theorem Header.geometry_bounded {dataLen : ℕ} {batch channels numAnchors : ℤ}
    {inputW inputH : ℤ}
    (h : Header dataLen batch channels numAnchors inputW inputH) :
    Bounded h.geometry := by
  have hchannels := h.channels_upper
  have hanchors := h.anchors_upper
  unfold maxDim at hchannels hanchors
  constructor
  · change channels.toNat ≤ 2 ^ 24
    omega
  · change numAnchors.toNat ≤ 2 ^ 24
    omega

theorem yoloGeometry_of_header {dataLen : ℕ} {batch channels numAnchors : ℤ}
    {inputW inputH : ℤ}
    (h : Header dataLen batch channels numAnchors inputW inputH) :
    yoloGeometry dataLen [batch, channels, numAnchors] inputW inputH =
      some h.geometry := by
  have hdims : ¬ (channels ≤ 4 ∨ numAnchors ≤ 0) := by
    have hchannels := h.channels_lower
    have hanchors := h.anchors_lower
    omega
  have hinput : ¬ (inputW ≤ 0 ∨ inputH ≤ 0) := by
    have hwidth := h.width
    have hheight := h.height
    omega
  have hmax : ¬ (maxDim < channels ∨ maxDim < numAnchors) := by
    have hchannels := h.channels_upper
    have hanchors := h.anchors_upper
    omega
  unfold yoloGeometry
  simp only [h.single, ne_eq, not_true_eq_false, if_false, dif_neg hdims,
    if_neg hinput, if_neg hmax, dif_pos h.toNat_fits]
  rfl

theorem header_of_yoloGeometry {dataLen : ℕ} {shape : List ℤ}
    {inputW inputH : ℤ}
    (hsome : (yoloGeometry dataLen shape inputW inputH).isSome) :
    ∃ batch channels numAnchors, shape = [batch, channels, numAnchors] ∧
      Header dataLen batch channels numAnchors inputW inputH := by
  unfold yoloGeometry at hsome
  split at hsome
  · rename_i batch channels numAnchors
    split_ifs at hsome with hbatch hdims hinput hmax hfits
    · simp at hsome
    · simp at hsome
    · simp at hsome
    · simp at hsome
    · have hcast : (channels.toNat : ℤ) * numAnchors.toNat ≤ dataLen := by
        exact_mod_cast hfits
      rw [Int.toNat_of_nonneg (by omega), Int.toNat_of_nonneg (by omega)]
        at hcast
      exact ⟨batch, channels, numAnchors, rfl, by omega, by omega, by omega,
        by omega, by omega, by omega, by omega, hcast⟩
    · simp at hsome
  · simp at hsome

section Run

variable {α : Type} [IntCast α] [Sub α] [Mul α] [Div α] [LT α] [LE α]
  [DecidableLT α] [DecidableLE α]

theorem mulU64_run {β : Type} (data : List β) {a b : ℕ}
    (h : a * b < 2 ^ 64) :
    (Routine.mulU64 a b : Routine β ℕ) data = ⟨[], some (a * b)⟩ := by
  change (⟨if a * b < 2 ^ 64 then [] else [.overflow],
    some (a * b % 2 ^ 64)⟩ : Run ℕ) = _
  rw [if_pos h, Nat.mod_eq_of_lt h]

theorem decodeTensor_accept {data : List α} {batch channels numAnchors : Int64}
    {inputW inputH : ℤ} (frameW frameH : ℤ) (confThreshold : α)
    (h : Header data.length batch.toInt channels.toInt numAnchors.toInt inputW
      inputH) :
    (decodeTensor data.length [batch, channels, numAnchors] frameW frameH
      inputW inputH confThreshold).Delivers data
      (true, (List.finRange h.geometry.numAnchors).filterMap
        (decodeAnchor h.geometry confThreshold ((frameW : α) / (inputW : α))
          ((frameH : α) / (inputH : α)))) := by
  have hlower := h.channels_lower
  have hchannels := h.channels_upper
  have hpositive := h.anchors_lower
  have hanchors := h.anchors_upper
  have hwidth := h.width
  have hheight := h.height
  have hfits := h.toNat_fits
  have hproduct : channels.toInt.toNat * numAnchors.toInt.toNat < 2 ^ 64 := by
    have hle := Nat.mul_le_mul h.geometry_bounded.channels
      h.geometry_bounded.numAnchors
    exact Nat.lt_of_le_of_lt hle (by decide)
  unfold decodeTensor
  dsimp only
  rw [if_neg (by rw [ne_one_iff]; exact not_not.mpr h.single),
    if_neg (by rw [le_four_iff, le_zero_iff]; omega),
    if_neg (by omega),
    if_neg (by rw [kMaxDim_lt_iff, kMaxDim_lt_iff]; omega),
    toNat_sub_four (by omega), toNat_toUInt64 (by omega),
    toNat_toUInt64 (by omega)]
  apply Routine.Delivers.bind (Routine.Delivers.mulU64 data hproduct)
  rw [if_neg (by omega)]
  apply Routine.Delivers.bind
    (loop_delivers h.geometry_bounded confThreshold _ _)
  exact Routine.Delivers.pure data _

theorem decodeTensor_reject {data : List α} {shape : List Int64}
    {inputW inputH : ℤ} (frameW frameH : ℤ) (confThreshold : α)
    (hreject : ∀ batch channels numAnchors,
      shape = [batch, channels, numAnchors] →
      ¬ Header data.length batch.toInt channels.toInt numAnchors.toInt inputW
        inputH) :
    decodeTensor data.length shape frameW frameH inputW inputH confThreshold
      data = ⟨[], some (false, [])⟩ := by
  unfold decodeTensor
  split
  · rename_i batch channels numAnchors
    by_cases hbatch : batch ≠ 1
    · rw [if_pos hbatch]
      rfl
    rw [if_neg hbatch]
    by_cases hdims : channels ≤ 4 ∨ numAnchors ≤ 0
    · rw [if_pos hdims]
      rfl
    rw [if_neg hdims]
    by_cases hinput : inputW ≤ 0 ∨ inputH ≤ 0
    · rw [if_pos hinput]
      rfl
    rw [if_neg hinput]
    by_cases hmax : kMaxDim < channels ∨ kMaxDim < numAnchors
    · rw [if_pos hmax]
      rfl
    rw [if_neg hmax]
    rw [ne_one_iff, not_not] at hbatch
    rw [le_four_iff, le_zero_iff] at hdims
    rw [kMaxDim_lt_iff, kMaxDim_lt_iff] at hmax
    have hfits : ¬ channels.toInt * numAnchors.toInt ≤ data.length := by
      intro hfits
      exact hreject batch channels numAnchors rfl
        ⟨hbatch, by omega, by omega, by omega, by omega, by omega, by omega,
          hfits⟩
    have hrequired : ¬ channels.toInt.toNat * numAnchors.toInt.toNat ≤
        data.length := by
      intro hle
      apply hfits
      have hcast : (channels.toInt.toNat : ℤ) * numAnchors.toInt.toNat ≤
          data.length := by
        exact_mod_cast hle
      rwa [Int.toNat_of_nonneg (by omega), Int.toNat_of_nonneg (by omega)]
        at hcast
    have hproduct : channels.toInt.toNat * numAnchors.toInt.toNat <
        2 ^ 64 := by
      unfold maxDim at hmax
      have hle : channels.toInt.toNat * numAnchors.toInt.toNat ≤
          2 ^ 24 * 2 ^ 24 :=
        Nat.mul_le_mul (by omega) (by omega)
      omega
    rw [toNat_toUInt64 (by omega), toNat_toUInt64 (by omega)]
    change Routine.andThen _ _ data = _
    unfold Routine.andThen
    rw [mulU64_run data hproduct]
    dsimp only
    rw [if_pos (by omega)]
    rfl
  · rfl

/-- The machine returns what the decoder over checked indices computes. -/
theorem decode_value (data : Option (List α)) (shape : Option (List Int64))
    (frameW frameH inputW inputH : ℤ) (confThreshold : α) :
    (decode data ((data.map List.length).getD 0) shape frameW frameH inputW
      inputH confThreshold).value =
      some (match decodeYoloOutput data (shape.map (·.map Int64.toInt)) frameW
          frameH inputW inputH confThreshold with
        | none => (false, [])
        | some out => (true, out)) := by
  cases data with
  | none => rfl
  | some data =>
      cases shape with
      | none => rfl
      | some shape =>
          by_cases hheader : ∃ batch channels numAnchors,
              shape = [batch, channels, numAnchors] ∧
              Header data.length batch.toInt channels.toInt numAnchors.toInt
                inputW inputH
          · obtain ⟨batch, channels, numAnchors, rfl, h⟩ := hheader
            have hrun := (decodeTensor_accept frameW frameH confThreshold h).1
            simp only [decode, decodeYoloOutput, Option.map_some,
              Option.getD_some, List.map_cons, List.map_nil,
              yoloGeometry_of_header h]
            exact hrun
          · have hnone : yoloGeometry data.length (shape.map Int64.toInt)
                inputW inputH = none := by
              rw [← Option.not_isSome_iff_eq_none]
              intro hsome
              obtain ⟨batch, channels, numAnchors, hshape, h⟩ :=
                header_of_yoloGeometry hsome
              cases shape with
              | nil => simp at hshape
              | cons a rest =>
                  cases rest with
                  | nil => simp at hshape
                  | cons b rest =>
                      cases rest with
                      | nil => simp at hshape
                      | cons c rest =>
                          simp only [List.map_cons, List.cons.injEq,
                            List.map_eq_nil_iff] at hshape
                          obtain ⟨rfl, rfl, rfl, rfl⟩ := hshape
                          exact hheader ⟨a, b, c, rfl, h⟩
            have hreject : ∀ batch channels numAnchors,
                shape = [batch, channels, numAnchors] →
                ¬ Header data.length batch.toInt channels.toInt
                  numAnchors.toInt inputW inputH := by
              intro batch channels numAnchors hshape h
              exact hheader ⟨batch, channels, numAnchors, hshape, h⟩
            have hrun := decodeTensor_reject frameW frameH confThreshold
              hreject
            simp only [decode, decodeYoloOutput, Option.map_some,
              Option.getD_some, hnone, Option.map_none, hrun]

end Run

/-! ## What is listed -/

section Listed

variable {α : Type} [Field α] [LinearOrder α]

/-- Channel `k` of anchor `i` in a row-major buffer. -/
def channelAt (data : List α) (anchors k i : ℕ) : α :=
  data.getD (k * anchors + i) 0

def classScore (data : List α) (anchors i c : ℕ) : α :=
  channelAt data anchors (4 + c) i

/-- `k` is the first class with the largest score, and that is positive. -/
structure TopClass (score : ℕ → α) (classes k : ℕ) : Prop where
  lt : k < classes
  positive : 0 < score k
  largest : ∀ c < classes, score c ≤ score k
  first : ∀ c < k, score c < score k

/-- The detection of an anchor: its box in centre form, rescaled from the
input to the frame. -/
def DetectionOf (data : List α) (classes anchors : ℕ)
    (frameW frameH inputW inputH : ℤ) (confThreshold : α) (i : ℕ)
    (detection : Detection α) : Prop :=
  ∃ k ∈ [2, 3, 5, 7], TopClass (classScore data anchors i) classes k ∧
    confThreshold ≤ classScore data anchors i k ∧
    detection =
      { classId := k
        confidence := classScore data anchors i k
        bbox :=
          { x := (channelAt data anchors 0 i -
              channelAt data anchors 2 i / (2 : ℕ)) * (frameW / inputW)
            y := (channelAt data anchors 1 i -
              channelAt data anchors 3 i / (2 : ℕ)) * (frameH / inputH)
            width := channelAt data anchors 2 i * (frameW / inputW)
            height := channelAt data anchors 3 i * (frameH / inputH) } }

def scanScores (score : ℕ → α) (classes : ℕ) : α × ℤ :=
  (List.range classes).foldl
    (fun best c => if best.1 < score c then (score c, (c : ℤ)) else best)
    (((0 : ℤ) : α), -1)

theorem scanScores_succ (score : ℕ → α) (classes : ℕ) :
    scanScores score (classes + 1) =
      if (scanScores score classes).1 < score classes then
        (score classes, (classes : ℤ))
      else scanScores score classes := by
  unfold scanScores
  rw [List.range_succ, List.foldl_append]
  rfl

theorem scanScores_spec (score : ℕ → α) (classes : ℕ) :
    (scanScores score classes = (0, -1) ∧ ∀ c < classes, score c ≤ 0) ∨
      ∃ k, TopClass score classes k ∧
        scanScores score classes = (score k, (k : ℤ)) := by
  induction classes with
  | zero =>
      left
      constructor
      · simp [scanScores]
      · intro c hc
        exact absurd hc (Nat.not_lt_zero c)
  | succ classes ih =>
      rw [scanScores_succ]
      cases ih with
      | inl hnone =>
          obtain ⟨hscan, hscores⟩ := hnone
          rw [hscan]
          by_cases hnew : 0 < score classes
          · right
            rw [if_pos hnew]
            have htop : TopClass score (classes + 1) classes :=
              { lt := Nat.lt_succ_self classes
                positive := hnew
                largest := Nat.forall_lt_succ_right.mpr
                  ⟨fun c hc => (hscores c hc).trans hnew.le, le_refl _⟩
                first := fun c hc => lt_of_le_of_lt (hscores c hc) hnew }
            exact ⟨classes, htop, rfl⟩
          · left
            rw [if_neg hnew]
            exact ⟨rfl, Nat.forall_lt_succ_right.mpr
              ⟨hscores, not_lt.mp hnew⟩⟩
      | inr htop =>
          obtain ⟨k, htop, hscan⟩ := htop
          right
          rw [hscan]
          by_cases hnew : score k < score classes
          · rw [if_pos hnew]
            have hlast : TopClass score (classes + 1) classes :=
              { lt := Nat.lt_succ_self classes
                positive := htop.positive.trans hnew
                largest := Nat.forall_lt_succ_right.mpr
                  ⟨fun c hc => (htop.largest c hc).trans hnew.le, le_refl _⟩
                first := fun c hc =>
                  lt_of_le_of_lt (htop.largest c hc) hnew }
            exact ⟨classes, hlast, rfl⟩
          · rw [if_neg hnew]
            have hsame : TopClass score (classes + 1) k :=
              { lt := Nat.lt_succ_of_lt htop.lt
                positive := htop.positive
                largest := Nat.forall_lt_succ_right.mpr
                  ⟨htop.largest, not_lt.mp hnew⟩
                first := htop.first }
            exact ⟨k, hsame, rfl⟩

theorem TopClass.unique {score : ℕ → α} {classes k l : ℕ}
    (hk : TopClass score classes k) (hl : TopClass score classes l) :
    k = l := by
  rcases lt_trichotomy k l with hlt | heq | hgt
  · exact absurd (hl.first k hlt) (not_lt.mpr (hk.largest l hl.lt))
  · exact heq
  · exact absurd (hk.first l hgt) (not_lt.mpr (hl.largest k hk.lt))

omit [LinearOrder α] in
theorem value_eq_channelAt {data : List α} (g : YoloGeometry data.length)
    {k : ℕ} (hk : k < g.channels) (i : Fin g.numAnchors) :
    g.value k hk i = channelAt data g.numAnchors k i := by
  unfold channelAt YoloGeometry.value
  rw [List.getD_eq_getElem?_getD, List.getElem?_eq_getElem (g.index_lt hk i)]
  rfl

theorem bestClass_eq_scanScores {data : List α} (g : YoloGeometry data.length)
    (i : Fin g.numAnchors) :
    bestClass g i =
      scanScores (classScore data g.numAnchors i) (g.channels - 4) := by
  unfold bestClass scanScores
  rw [← List.map_coe_finRange_eq_range, List.foldl_map]
  simp only [value_eq_channelAt]
  rfl

theorem decodeAnchor_eq_some_iff {data : List α} (g : YoloGeometry data.length)
    (frameW frameH inputW inputH : ℤ) (confThreshold : α)
    (i : Fin g.numAnchors) (detection : Detection α) :
    decodeAnchor g confThreshold ((frameW : α) / (inputW : α))
      ((frameH : α) / (inputH : α)) i = some detection ↔
      DetectionOf data (g.channels - 4) g.numAnchors frameW frameH inputW
        inputH confThreshold i detection := by
  unfold decodeAnchor
  rw [bestClass_eq_scanScores]
  simp only [value_eq_channelAt]
  have hspec := scanScores_spec (classScore data g.numAnchors i)
    (g.channels - 4)
  cases hspec with
  | inl hnone =>
      obtain ⟨hscan, hscores⟩ := hnone
      rw [hscan, if_neg (by simp [isVehicle])]
      constructor
      · intro hdetection
        cases hdetection
      · rintro ⟨k, _, htop, _⟩
        exact absurd htop.positive (not_lt.mpr (hscores k htop.lt))
  | inr hsome =>
      obtain ⟨k, htop, hscan⟩ := hsome
      rw [hscan]
      have hvehicle : isVehicle (k : ℤ) = true ↔ k ∈ [2, 3, 5, 7] := by
        simp only [isVehicle, List.mem_cons, List.not_mem_nil, or_false,
          decide_eq_true_eq]
        norm_cast
      constructor
      · intro hdetection
        dsimp only at hdetection
        split_ifs at hdetection with hkeep
        refine ⟨k, hvehicle.mp hkeep.2, htop, hkeep.1, ?_⟩
        rw [← Option.some.inj hdetection]
        norm_cast
      · rintro ⟨l, hl, hltop, hconf, rfl⟩
        have hkl := htop.unique hltop
        subst hkl
        dsimp only
        rw [if_pos ⟨hconf, hvehicle.mpr hl⟩]
        norm_cast

theorem forall₂_filterMap {ι β : Type} (f : ι → Option β) (indices : List ι) :
    List.Forall₂ (fun i b => f i = some b)
      (indices.filter fun i => (f i).isSome) (indices.filterMap f) := by
  induction indices with
  | nil => exact List.Forall₂.nil
  | cons i rest ih =>
      cases hi : f i with
      | none =>
          rw [List.filter_cons_of_neg (by simp [hi]),
            List.filterMap_cons_none hi]
          exact ih
      | some b =>
          rw [List.filter_cons_of_pos (by simp [hi]),
            List.filterMap_cons_some hi]
          exact List.Forall₂.cons hi ih

theorem decoded_anchors {data : List α} (g : YoloGeometry data.length)
    (frameW frameH inputW inputH : ℤ) (confThreshold : α) :
    ∃ anchors : List ℕ, anchors.Pairwise (· < ·) ∧
      (∀ i, i ∈ anchors ↔ i < g.numAnchors ∧ ∃ detection,
        DetectionOf data (g.channels - 4) g.numAnchors frameW frameH inputW
          inputH confThreshold i detection) ∧
      List.Forall₂
        (DetectionOf data (g.channels - 4) g.numAnchors frameW frameH inputW
          inputH confThreshold) anchors
        ((List.finRange g.numAnchors).filterMap
          (decodeAnchor g confThreshold ((frameW : α) / (inputW : α))
            ((frameH : α) / (inputH : α)))) := by
  have hiff := decodeAnchor_eq_some_iff g frameW frameH inputW inputH
    confThreshold
  have hlisted := forall₂_filterMap
    (decodeAnchor g confThreshold ((frameW : α) / (inputW : α))
      ((frameH : α) / (inputH : α))) (List.finRange g.numAnchors)
  refine ⟨(List.filter _ (List.finRange g.numAnchors)).map Fin.val, ?_, ?_,
    List.forall₂_map_left_iff.mpr (hlisted.imp fun i detection =>
      (hiff i detection).mp)⟩
  · rw [List.pairwise_map]
    exact (List.pairwise_lt_finRange _).filter _
  · intro i
    simp only [List.mem_map, List.mem_filter, List.mem_finRange, true_and,
      Option.isSome_iff_exists, hiff]
    constructor
    · rintro ⟨j, hj, rfl⟩
      exact ⟨j.isLt, hj⟩
    · rintro ⟨hi, hdetection⟩
      exact ⟨⟨i, hi⟩, hdetection, rfl⟩

/-- The decoder never leaves the buffer and never wraps around.  It accepts the
well-formed headers only, reads nothing for any other, and lists the anchors
whose best class is a vehicle of enough confidence, each once and in order. -/
theorem decode_safe_and_complete (data : List α) (shape : List Int64)
    (frameW frameH inputW inputH : ℤ) (confThreshold : α) :
    ∃ accesses accepted out,
      decode (some data) data.length (some shape) frameW frameH inputW inputH
        confThreshold = ⟨accesses, some (accepted, out)⟩ ∧
      (∀ access ∈ accesses, ∃ i < data.length, access = .read i) ∧
      (accepted = true ↔ ∃ channels numAnchors : Int64,
        shape = [1, channels, numAnchors] ∧
        5 ≤ channels.toInt ∧ channels.toInt ≤ 2 ^ 24 ∧
        1 ≤ numAnchors.toInt ∧ numAnchors.toInt ≤ 2 ^ 24 ∧
        0 < inputW ∧ 0 < inputH ∧
        channels.toInt * numAnchors.toInt ≤ data.length) ∧
      (accepted = false → accesses = [] ∧ out = []) ∧
      (accepted = true → ∀ channels numAnchors : Int64,
        shape = [1, channels, numAnchors] → ∃ anchors : List ℕ,
          anchors.Pairwise (· < ·) ∧
          (∀ i, i ∈ anchors ↔ i < numAnchors.toInt.toNat ∧ ∃ detection,
            DetectionOf data (channels.toInt.toNat - 4) numAnchors.toInt.toNat
              frameW frameH inputW inputH confThreshold i detection) ∧
          List.Forall₂
            (DetectionOf data (channels.toInt.toNat - 4)
              numAnchors.toInt.toNat frameW frameH inputW inputH confThreshold)
            anchors out) := by
  by_cases hheader : ∃ batch channels numAnchors,
      shape = [batch, channels, numAnchors] ∧
      Header data.length batch.toInt channels.toInt numAnchors.toInt inputW
        inputH
  · obtain ⟨batch, channels, numAnchors, rfl, h⟩ := hheader
    have hbatch : batch = 1 := by
      rw [← not_not (a := batch = 1), ← ne_eq, ne_one_iff, not_not]
      exact h.single
    have hrun := decodeTensor_accept frameW frameH confThreshold h
    obtain ⟨anchors, hsorted, hmem, hlisted⟩ := decoded_anchors h.geometry
      frameW frameH inputW inputH confThreshold
    refine ⟨_, true, _, congrArg (Run.mk _) hrun.1, hrun.2, ?_, ?_, ?_⟩
    · simp only [true_iff]
      exact ⟨channels, numAnchors, by rw [hbatch], h.channels_lower,
        h.channels_upper, h.anchors_lower, h.anchors_upper, h.width, h.height,
        h.fits⟩
    · intro hrejected
      cases hrejected
    · intro _ channels' numAnchors' hshape
      simp only [List.cons.injEq, and_true] at hshape
      obtain ⟨_, rfl, rfl⟩ := hshape
      exact ⟨anchors, hsorted, hmem, hlisted⟩
  · have hreject : ∀ batch channels numAnchors,
        shape = [batch, channels, numAnchors] →
        ¬ Header data.length batch.toInt channels.toInt numAnchors.toInt
          inputW inputH := by
      intro batch channels numAnchors hshape h
      exact hheader ⟨batch, channels, numAnchors, hshape, h⟩
    have hrun := decodeTensor_reject frameW frameH confThreshold hreject
    refine ⟨[], false, [], hrun, ?_, ?_, ?_, ?_⟩
    · intro access haccess
      cases haccess
    · simp only [Bool.false_eq_true, false_iff]
      rintro ⟨channels, numAnchors, rfl, hlower, hupper, hpositive, hanchors,
        hwidth, hheight, hfits⟩
      exact hheader ⟨1, channels, numAnchors, rfl, rfl, hlower, hupper,
        hpositive, hanchors, hwidth, hheight, hfits⟩
    · intro _
      exact ⟨rfl, rfl⟩
    · intro haccepted
      cases haccepted

end Listed

end YoloDecoding

end Semaforo
