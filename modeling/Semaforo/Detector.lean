import Mathlib.Tactic

/-!
# The camera and the detector

`VideoPipeline::read_frame`, the decoder of the model output and
`Detector::detect`.  Scores and boxes are over any arithmetic, and what the
ONNX session returns is an input.  A tensor is indexed only through its checked
geometry, so no read of the decoder leaves the buffer.
-/

namespace Semaforo

/-! ## The camera -/

/-- The size of a `cv::Mat`; the pixels reach the session only. -/
structure Mat where
  cols : ℤ := 0
  rows : ℤ := 0
  deriving DecidableEq, Repr

def Mat.empty (m : Mat) : Bool := ¬ (0 < m.cols ∧ 0 < m.rows)

abbrev Image := { m : Mat // m.empty = false }

/-- What the capture device does when a frame is asked for. -/
inductive Capture where
  /-- The pipeline is not open, or there is no open capture. -/
  | closed
  /-- `cv::VideoCapture::read` returns false and leaves its argument empty. -/
  | failed
  | grabbed (image : Image)
  deriving DecidableEq, Repr

structure VideoPipeline where
  desiredWidth : ℤ := 0
  desiredHeight : ℤ := 0
  deriving DecidableEq, Repr

namespace VideoPipeline

def resize (v : VideoPipeline) (out : Mat) : Mat :=
  if 0 < v.desiredWidth ∧ 0 < v.desiredHeight ∧
      (out.cols ≠ v.desiredWidth ∨ out.rows ≠ v.desiredHeight) then
    ⟨v.desiredWidth, v.desiredHeight⟩
  else out

/-- Whether a frame was read, and the recycled buffer. -/
def readFrame (v : VideoPipeline) (out : Mat) : Capture → Bool × Mat
  | .closed => (false, out)
  | .failed => (false, {})
  | .grabbed image => (true, v.resize image)

theorem resize_empty (v : VideoPipeline) (image : Image) :
    (v.resize image).empty = false := by
  unfold resize
  split_ifs with hresize
  · simp [Mat.empty, hresize.1, hresize.2.1]
  · exact image.2

end VideoPipeline

/-! ## The decoder -/

structure BBox (α : Type) where
  x : α
  y : α
  width : α
  height : α
  deriving DecidableEq, Repr

structure Detection (α : Type) where
  bbox : BBox α
  classId : ℤ
  confidence : α
  deriving DecidableEq, Repr

/-- The shape of an output tensor that its buffer really holds. -/
structure YoloGeometry (dataLen : ℕ) where
  channels : ℕ
  numAnchors : ℕ
  has_classes : 4 < channels
  fits : channels * numAnchors ≤ dataLen
  deriving DecidableEq, Repr

theorem YoloGeometry.index_lt {dataLen : ℕ} (g : YoloGeometry dataLen) {k : ℕ}
    (hk : k < g.channels) (i : Fin g.numAnchors) :
    k * g.numAnchors + i < dataLen := by
  calc
    k * g.numAnchors + i < k * g.numAnchors + g.numAnchors :=
      Nat.add_lt_add_left i.isLt _
    _ = (k + 1) * g.numAnchors := (Nat.succ_mul k g.numAnchors).symm
    _ ≤ g.channels * g.numAnchors := Nat.mul_le_mul_right _ hk
    _ ≤ dataLen := g.fits

/-- `kMaxDim` of the decoder. -/
def maxDim : ℤ := 2 ^ 24

def yoloGeometry (dataLen : ℕ) (shape : List ℤ) (inputW inputH : ℤ) :
    Option (YoloGeometry dataLen) :=
  match shape with
  | [batch, channels, numAnchors] =>
      if batch ≠ 1 then none
      else if hdims : channels ≤ 4 ∨ numAnchors ≤ 0 then none
      else if inputW ≤ 0 ∨ inputH ≤ 0 then none
      else if maxDim < channels ∨ maxDim < numAnchors then none
      else if hfits : channels.toNat * numAnchors.toNat ≤ dataLen then
        some
          { channels := channels.toNat
            numAnchors := numAnchors.toNat
            has_classes := by omega
            fits := hfits }
      else none
  | _ => none

section Decoder

variable {α : Type} [IntCast α] [Sub α] [Mul α] [Div α] [LT α] [LE α]
  [DecidableLT α] [DecidableLE α]

/-- Channel `k` of anchor `i` in the row-major buffer. -/
def YoloGeometry.value {data : List α} (g : YoloGeometry data.length) (k : ℕ)
    (hk : k < g.channels) (i : Fin g.numAnchors) : α :=
  data.get ⟨k * g.numAnchors + i, g.index_lt hk i⟩

/-- The largest class score of an anchor and its class. -/
def bestClass {data : List α} (g : YoloGeometry data.length)
    (i : Fin g.numAnchors) : α × ℤ :=
  (List.finRange (g.channels - 4)).foldl
    (fun best (c : Fin (g.channels - 4)) =>
      let score := g.value (4 + c) (Nat.add_lt_of_lt_sub' c.isLt) i
      if best.1 < score then (score, c) else best)
    (((0 : ℤ) : α), -1)

/-- The vehicular classes of COCO: car, motorcycle, bus and truck. -/
def isVehicle (classId : ℤ) : Bool :=
  classId = 2 ∨ classId = 3 ∨ classId = 5 ∨ classId = 7

def decodeAnchor {data : List α} (g : YoloGeometry data.length)
    (confThreshold scaleX scaleY : α) (i : Fin g.numAnchors) :
    Option (Detection α) :=
  have hclasses := g.has_classes
  let (maxScore, classId) := bestClass g i
  if confThreshold ≤ maxScore ∧ isVehicle classId then
    let two : α := ((2 : ℤ) : α)
    let cx := g.value 0 (by omega) i
    let cy := g.value 1 (by omega) i
    let w := g.value 2 (by omega) i
    let h := g.value 3 (by omega) i
    some
      { classId := classId
        confidence := maxScore
        bbox :=
          { x := (cx - w / two) * scaleX
            y := (cy - h / two) * scaleY
            width := w * scaleX
            height := h * scaleY } }
  else none

/-- The decoded detections, or `none` for a rejected tensor.  A null pointer is
`none`, and `data` is as long as the tensor has elements. -/
def decodeYoloOutput (data : Option (List α)) (shape : Option (List ℤ))
    (frameW frameH inputW inputH : ℤ) (confThreshold : α) :
    Option (List (Detection α)) :=
  match data, shape with
  | some data, some shape =>
      (yoloGeometry data.length shape inputW inputH).map fun g =>
        (List.finRange g.numAnchors).filterMap
          (decodeAnchor g confThreshold ((frameW : α) / (inputW : α))
            ((frameH : α) / (inputH : α)))
  | _, _ => none

end Decoder

/-! ## The detector -/

inductive ElementType where
  | float
  | other
  deriving DecidableEq, Repr

structure OutputTensor (α : Type) where
  elementType : ElementType
  shape : List ℤ
  data : Option (List α)
  deriving DecidableEq, Repr

/-- What `session->Run` does, if it is called. -/
inductive SessionRun (α : Type) where
  | threw
  | returned (outputTensors : List (OutputTensor α))
  deriving DecidableEq, Repr

structure Detector (α : Type) where
  initialized : Bool
  stubMode : Bool
  /-- A session exists. -/
  session : Bool
  inputWidth : ℤ
  inputHeight : ℤ
  confThreshold : α
  deriving DecidableEq, Repr

namespace Detector

variable {α : Type} [IntCast α] [Sub α] [Mul α] [Div α] [LT α] [LE α]
  [DecidableLT α] [DecidableLE α]

def decode (d : Detector α) (frame : Mat) (tensor : OutputTensor α) :
    Option (List (Detection α)) :=
  decodeYoloOutput tensor.data (some tensor.shape) frame.cols frame.rows
    d.inputWidth d.inputHeight d.confThreshold

/-- The detections that are handed to the non-maximum suppression, or `none`
where `detect` returns false. -/
def detect (d : Detector α) (frame : Mat) (run : SessionRun α) :
    Option (List (Detection α)) :=
  if ¬ d.initialized ∨ frame.empty then some []
  else if d.stubMode ∨ ¬ d.session then some []
  else
    match run with
    | .threw => none
    | .returned [] => none
    | .returned (tensor :: _) =>
        if tensor.elementType ≠ .float then none else d.decode frame tensor

/-- A model has been loaded: `detect` runs the session on every frame. -/
structure Loaded (d : Detector α) : Prop where
  initialized : d.initialized = true
  stubMode : d.stubMode = false
  session : d.session = true

/-- `detect` gets as far as `session->Run`. -/
def RunsSession (d : Detector α) (frame : Mat) : Prop :=
  d.initialized = true ∧ frame.empty = false ∧ d.stubMode = false ∧
    d.session = true

/-- The decoder accepts what the session has returned. -/
def Accepts (d : Detector α) (frame : Mat) (run : SessionRun α) : Prop :=
  ∃ tensor others, run = .returned (tensor :: others) ∧
    tensor.elementType = .float ∧ (d.decode frame tensor).isSome = true

omit [IntCast α] [Sub α] [Mul α] [Div α] [LT α] [LE α] [DecidableLT α]
  [DecidableLE α] in
theorem Loaded.runsSession_iff {d : Detector α} (hd : d.Loaded) (frame : Mat) :
    d.RunsSession frame ↔ frame.empty = false := by
  simp [RunsSession, hd.initialized, hd.stubMode, hd.session]

/-- The two reasons for `detect` to return true. -/
theorem Loaded.detect_iff {d : Detector α} (hd : d.Loaded) (frame : Mat)
    (run : SessionRun α) :
    (d.detect frame run).isSome = true ↔
      frame.empty = true ∨ d.Accepts frame run := by
  unfold detect
  rw [hd.initialized, hd.stubMode, hd.session]
  cases hframe : frame.empty with
  | true => simp
  | false =>
      simp only [not_true_eq_false, Bool.false_eq_true, or_self, if_false,
        false_or]
      constructor
      · intro hsome
        cases run with
        | threw => simp at hsome
        | returned outputTensors =>
            cases outputTensors with
            | nil => simp at hsome
            | cons tensor others =>
                dsimp only at hsome
                by_cases hfloat : tensor.elementType = .float
                · rw [if_neg (by simpa using hfloat)] at hsome
                  exact ⟨tensor, others, rfl, hfloat, hsome⟩
                · rw [if_pos hfloat] at hsome
                  simp at hsome
      · rintro ⟨tensor, others, rfl, hfloat, hsome⟩
        dsimp only
        rw [if_neg (by simpa using hfloat)]
        exact hsome

end Detector

end Semaforo
