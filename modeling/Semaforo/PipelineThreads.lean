import Semaforo.TimedRun
import Mathlib.Tactic

/-!
# The reconnect protocol of the video pipeline

A translation of `VideoPipeline` from `edge/src/pipeline.cpp`.  The control
thread makes the public calls and a worker reopens the camera; each atomic
access and each critical section is one move, and the moves of the two threads
come in any order.  Captures are numbered as they are opened.  What a capture
delivers and how it is opened is the business of the video library: only
whether it could be opened is an input of a move.  How long a critical section
or a call of the library takes is left open, so that of the waits only the joins
are in the model.
-/

namespace Semaforo

namespace PipelineThreads

/-- Where the reconnect thread stands.  `lowered` is the way from the last store
of the flag to the end of the thread. -/
inductive Worker where
  | backoff (i : ℕ)
  | stopCheck
  | clearStopped
  | opening
  | install (cap : ℕ)
  | storeOpened
  | clear
  | lowered
  | done
  deriving DecidableEq, Repr

/-- Where the control thread stands.  `last` marks the `release` that the
destructor calls. -/
inductive Control where
  | idle
  | readLock
  | loadOpened (cap : Option ℕ)
  | reading (cap : ℕ)
  | compareExchange
  | join
  | spawn
  | detach (last : Bool)
  | storeClosed (old : Option ℕ) (last : Bool)
  | releaseOld (old : Option ℕ) (last : Bool)
  | storeStop
  | joinLast
  | destroyed
  | terminated
  deriving DecidableEq, Repr

inductive PublicCall where
  | readFrame
  | triggerReconnectAsync
  | release
  | destructor
  deriving DecidableEq, Repr

inductive Move where
  | call (c : PublicCall)
  | control
  | worker (opens : Bool)
  deriving DecidableEq, Repr

end PipelineThreads

open PipelineThreads

/-- `VideoPipeline::Impl` and the two threads.  `metadata` is the capture whose
frame size and rate are stored, `reconnectThread` is empty when it cannot be
joined. -/
structure PipelineThreads where
  capture : Option ℕ := none
  metadata : Option ℕ := none
  opened : Bool := false
  isReconnecting : Bool := false
  stop : Bool := false
  reconnectThread : Option Worker := none
  control : Control := .idle
  built : ℕ := 0
  released : List ℕ := []
  deriving DecidableEq, Repr

namespace PipelineThreads

/-- `init`, called once on a fresh object. -/
def init (opens : Bool) : PipelineThreads :=
  if opens then
    { capture := some 0, metadata := some 0, opened := true, built := 1 }
  else { opened := false }

/-- A public call is made by the control thread between its other calls. -/
def startCall (s : PipelineThreads) (c : PublicCall) : PipelineThreads :=
  match s.control with
  | .idle =>
      match c with
      | .readFrame => { s with control := .readLock }
      | .triggerReconnectAsync => { s with control := .compareExchange }
      | .release => { s with control := .detach false }
      | .destructor => { s with control := .storeStop }
  | _ => s

def controlStep (s : PipelineThreads) : PipelineThreads :=
  match s.control with
  | .idle => s
  | .readLock => { s with control := .loadOpened s.capture }
  | .loadOpened none => { s with control := .idle }
  | .loadOpened (some cap) =>
      if ¬ s.opened ∨ cap ∈ s.released then { s with control := .idle }
      else { s with control := .reading cap }
  | .reading _ => { s with control := .idle }
  | .compareExchange =>
      if s.isReconnecting then { s with control := .idle }
      else { s with isReconnecting := true, control := .join }
  | .join =>
      match s.reconnectThread with
      | none => { s with control := .spawn }
      | some .done => { s with reconnectThread := none, control := .spawn }
      | some _ => s
  | .spawn =>
      match s.reconnectThread with
      | none => { s with reconnectThread := some (.backoff 0), control := .idle }
      | some _ => { s with control := .terminated }
  | .detach last =>
      { s with capture := none, control := .storeClosed s.capture last }
  | .storeClosed old last =>
      { s with opened := false, control := .releaseOld old last }
  | .releaseOld old last =>
      { s with
        released := old.toList ++ s.released
        control := if last then .destroyed else .idle }
  | .storeStop => { s with stop := true, control := .joinLast }
  | .joinLast =>
      match s.reconnectThread with
      | none => { s with control := .detach true }
      | some .done => { s with reconnectThread := none, control := .detach true }
      | some _ => s
  | .destroyed => s
  | .terminated => s

def workerStep (s : PipelineThreads) (opens : Bool) : PipelineThreads :=
  match s.reconnectThread with
  | none => s
  | some (.backoff i) =>
      if i < 20 ∧ ¬ s.stop then
        { s with reconnectThread := some (.backoff (i + 1)) }
      else { s with reconnectThread := some .stopCheck }
  | some .stopCheck =>
      if s.stop then { s with reconnectThread := some .clearStopped }
      else { s with reconnectThread := some .opening }
  | some .clearStopped =>
      { s with isReconnecting := false, reconnectThread := some .lowered }
  | some .opening =>
      if opens then
        { s with built := s.built + 1, reconnectThread := some (.install s.built) }
      else { s with reconnectThread := some .clear }
  | some (.install cap) =>
      { s with
        capture := some cap
        metadata := some cap
        reconnectThread := some .storeOpened }
  | some .storeOpened =>
      { s with opened := true, reconnectThread := some .clear }
  | some .clear =>
      { s with isReconnecting := false, reconnectThread := some .lowered }
  | some .lowered => { s with reconnectThread := some .done }
  | some .done => s

/-- The moves of both threads, in any order. -/
def machine : Machine PipelineThreads Move Unit where
  step s m :=
    match m with
    | .call c => s.startCall c
    | .control => s.controlStep
    | .worker opens => s.workerStep opens
  time _ := ()

/-- Invariant rule for the two threads. -/
theorem run_of_moves {I : PipelineThreads → Prop} {s : PipelineThreads}
    (hcall : ∀ s c, I s → I (s.startCall c))
    (hcontrol : ∀ s, I s → I s.controlStep)
    (hworker : ∀ s opens, I s → I (s.workerStep opens))
    (hs : I s) (moves : List Move) : I (machine.run s moves) := by
  refine machine.run_invariant ?_ moves hs
  intro s m hs
  cases m with
  | call c => exact hcall s c hs
  | control => exact hcontrol s hs
  | worker opens => exact hworker s opens hs

/-! ## One worker at a time -/

/-- The thread has not finished. -/
def Busy (s : PipelineThreads) : Prop :=
  ∃ w, s.reconnectThread = some w ∧ w ≠ .done

/-- The thread has not lowered the flag. -/
def Working (s : PipelineThreads) : Prop :=
  ∃ w, s.reconnectThread = some w ∧ w ≠ .lowered ∧ w ≠ .done

/-- The flag is up from the exchange that wins it until the worker lowers it, so
the thread that a trigger joins has nothing left to do but to end. -/
structure Exclusive (s : PipelineThreads) : Prop where
  flag : s.isReconnecting = true ↔
    s.Working ∨ s.control = .join ∨ s.control = .spawn
  joins : s.control = .join → ¬ s.Working
  spawns : s.control = .spawn → s.reconnectThread = none
  alive : s.control ≠ .terminated

theorem init_exclusive (opens : Bool) : (init opens).Exclusive := by
  cases opens <;> constructor <;> simp [init, Working]

/-- Places where the control thread is not about to start a worker. -/
def Control.Aside (c : Control) : Prop := c ≠ .join ∧ c ≠ .spawn ∧ c ≠ .terminated

theorem Exclusive.goto {s s' : PipelineThreads} (hs : s.Exclusive)
    (hflag : s'.isReconnecting = s.isReconnecting) (hworking : s'.Working ↔ s.Working)
    (hfrom : s.control.Aside) (hto : s'.control.Aside) : s'.Exclusive where
  flag := by
    obtain ⟨hjoin, hspawn, _⟩ := hfrom
    obtain ⟨hjoin', hspawn', _⟩ := hto
    rw [hflag, hworking, hs.flag]
    simp only [hjoin, hspawn, hjoin', hspawn']
  joins h := absurd h hto.1
  spawns h := absurd h hto.2.1
  alive := hto.2.2

theorem Exclusive.startCall {s : PipelineThreads} (hs : s.Exclusive)
    (c : PublicCall) : (s.startCall c).Exclusive := by
  unfold PipelineThreads.startCall
  split
  · rename_i hidle
    have hfrom : s.control.Aside := hidle ▸ ⟨nofun, nofun, nofun⟩
    cases c <;> exact hs.goto rfl Iff.rfl hfrom ⟨nofun, nofun, nofun⟩
  · exact hs

/-- The trigger that wins the exchange finds no worker that still runs. -/
theorem Exclusive.won {s : PipelineThreads} (hs : s.Exclusive)
    (hflag : s.isReconnecting = false) :
    { s with isReconnecting := true, control := .join : PipelineThreads }.Exclusive
    where
  flag := iff_of_true rfl (Or.inr (Or.inl rfl))
  joins _ hworking := by
    have hup := hs.flag.mpr (Or.inl hworking)
    rw [hflag] at hup
    cases hup
  spawns := nofun
  alive := nofun

theorem Exclusive.joined {s s' : PipelineThreads} (hs : s.Exclusive)
    (hjoin : s.control = .join) (hflag : s'.isReconnecting = s.isReconnecting)
    (hthread : s'.reconnectThread = none) (hto : s'.control = .spawn) :
    s'.Exclusive where
  flag := by
    rw [hflag]
    exact iff_of_true (hs.flag.mpr (Or.inr (Or.inl hjoin))) (Or.inr (Or.inr hto))
  joins h := by rw [hto] at h; cases h
  spawns _ := hthread
  alive h := by rw [hto] at h; cases h

theorem Exclusive.spawned {s : PipelineThreads} (hs : s.Exclusive)
    (hspawn : s.control = .spawn) :
    { s with
      reconnectThread := some (.backoff 0)
      control := .idle : PipelineThreads }.Exclusive where
  flag := iff_of_true (hs.flag.mpr (Or.inr (Or.inr hspawn)))
    (Or.inl ⟨_, rfl, nofun, nofun⟩)
  joins := nofun
  spawns := nofun
  alive := nofun

theorem not_working_of_ended {s : PipelineThreads}
    (h : s.reconnectThread = some .lowered ∨ s.reconnectThread = some .done) :
    ¬ s.Working := by
  rintro ⟨w, hw, hlowered, hdone⟩
  rcases h with h | h
  · exact hlowered (Option.some.inj (hw.symm.trans h))
  · exact hdone (Option.some.inj (hw.symm.trans h))

theorem not_working_of_none {s : PipelineThreads} (h : s.reconnectThread = none) :
    ¬ s.Working := by
  rintro ⟨w, hw, _⟩
  cases h.symm.trans hw

theorem Exclusive.controlStep {s : PipelineThreads} (hs : s.Exclusive) :
    s.controlStep.Exclusive := by
  unfold PipelineThreads.controlStep
  cases hcontrol : s.control with
  | idle => exact hs
  | join =>
      cases hthread : s.reconnectThread with
      | none => exact hs.joined hcontrol rfl rfl rfl
      | some w =>
          cases w with
          | done => exact hs.joined hcontrol rfl rfl rfl
          | _ => exact hs
  | spawn =>
      rw [hs.spawns hcontrol]
      exact hs.spawned hcontrol
  | destroyed => exact hs
  | terminated => exact hs
  | compareExchange =>
      have hfrom : s.control.Aside := hcontrol ▸ ⟨nofun, nofun, nofun⟩
      dsimp only
      split_ifs with hflag
      · exact hs.goto rfl Iff.rfl hfrom ⟨nofun, nofun, nofun⟩
      · exact hs.won (Bool.eq_false_of_not_eq_true hflag)
  | joinLast =>
      have hfrom : s.control.Aside := hcontrol ▸ ⟨nofun, nofun, nofun⟩
      cases hthread : s.reconnectThread with
      | none =>
          exact hs.goto rfl
            (iff_of_false (not_working_of_none rfl) (not_working_of_none hthread))
            hfrom ⟨nofun, nofun, nofun⟩
      | some w =>
          cases w with
          | done =>
              exact hs.goto rfl
                (iff_of_false (not_working_of_none rfl) (not_working_of_ended (Or.inr hthread)))
                hfrom ⟨nofun, nofun, nofun⟩
          | _ => exact hs
  | loadOpened cap =>
      have hfrom : s.control.Aside := hcontrol ▸ ⟨nofun, nofun, nofun⟩
      cases cap with
      | none => exact hs.goto rfl Iff.rfl hfrom ⟨nofun, nofun, nofun⟩
      | some cap =>
          dsimp only
          split_ifs <;> exact hs.goto rfl Iff.rfl hfrom ⟨nofun, nofun, nofun⟩
  | releaseOld old last =>
      have hfrom : s.control.Aside := hcontrol ▸ ⟨nofun, nofun, nofun⟩
      cases last <;> exact hs.goto rfl Iff.rfl hfrom ⟨nofun, nofun, nofun⟩
  -- the other places only move on to the next one
  | _ =>
      have hfrom : s.control.Aside := hcontrol ▸ ⟨nofun, nofun, nofun⟩
      exact hs.goto rfl Iff.rfl hfrom ⟨nofun, nofun, nofun⟩

theorem Exclusive.onward {s s' : PipelineThreads} (hs : s.Exclusive)
    (hflag : s'.isReconnecting = s.isReconnecting) (hcontrol : s'.control = s.control)
    (hworking : s.Working) (hworking' : s'.Working) : s'.Exclusive where
  flag := by
    rw [hflag]
    exact iff_of_true (hs.flag.mpr (Or.inl hworking)) (Or.inl hworking')
  joins h := absurd hworking (hs.joins (hcontrol ▸ h))
  spawns h := absurd hworking (not_working_of_none (hs.spawns (hcontrol ▸ h)))
  alive := hcontrol ▸ hs.alive

/-- The worker lowers the flag before it ends. -/
theorem Exclusive.lowered {s : PipelineThreads} (hs : s.Exclusive)
    (hworking : s.Working) :
    { s with
      isReconnecting := false
      reconnectThread := some .lowered : PipelineThreads }.Exclusive where
  flag := by
    refine iff_of_false Bool.false_ne_true ?_
    rintro (h | h | h)
    · exact not_working_of_ended (Or.inl rfl) h
    · exact hs.joins h hworking
    · exact not_working_of_none (hs.spawns h) hworking
  joins _ := not_working_of_ended (Or.inl rfl)
  spawns h := absurd hworking (not_working_of_none (hs.spawns h))
  alive := hs.alive

theorem Exclusive.ended {s : PipelineThreads} (hs : s.Exclusive)
    (hlowered : s.reconnectThread = some .lowered) :
    { s with reconnectThread := some .done : PipelineThreads }.Exclusive where
  flag := by
    have hbefore : ¬ s.Working := not_working_of_ended (Or.inl hlowered)
    have hafter : ¬ { s with reconnectThread := some .done :
        PipelineThreads }.Working := not_working_of_ended (Or.inr rfl)
    refine hs.flag.trans ?_
    simp only [hbefore, hafter]
  joins _ := not_working_of_ended (Or.inr rfl)
  spawns h := by
    have hnone := hs.spawns h
    rw [hlowered] at hnone
    cases hnone
  alive := hs.alive

theorem Exclusive.workerStep {s : PipelineThreads} (hs : s.Exclusive)
    (opens : Bool) : (s.workerStep opens).Exclusive := by
  unfold PipelineThreads.workerStep
  cases hthread : s.reconnectThread with
  | none => exact hs
  | some w =>
      cases w with
      | done => exact hs
      | lowered => exact hs.ended hthread
      | clearStopped => exact hs.lowered ⟨_, hthread, nofun, nofun⟩
      | clear => exact hs.lowered ⟨_, hthread, nofun, nofun⟩
      | install cap =>
          exact hs.onward rfl rfl ⟨_, hthread, nofun, nofun⟩ ⟨_, rfl, nofun, nofun⟩
      | storeOpened =>
          exact hs.onward rfl rfl ⟨_, hthread, nofun, nofun⟩ ⟨_, rfl, nofun, nofun⟩
      | _ =>
          dsimp only
          split_ifs <;>
            exact hs.onward rfl rfl ⟨_, hthread, nofun, nofun⟩
              ⟨_, rfl, nofun, nofun⟩

/-- What a trigger may find in the slot that it joins. -/
theorem Exclusive.joined_thread {s : PipelineThreads} (hs : s.Exclusive)
    (hjoin : s.control = .join) :
    s.reconnectThread = none ∨ s.reconnectThread = some .lowered ∨
      s.reconnectThread = some .done := by
  cases hthread : s.reconnectThread with
  | none => exact Or.inl rfl
  | some w =>
      refine Or.inr ?_
      by_contra hnot
      obtain ⟨hlowered, hdone⟩ := not_or.mp hnot
      exact hs.joins hjoin ⟨w, hthread, fun h => hlowered (congrArg some h),
        fun h => hdone (congrArg some h)⟩

theorem run_exclusive (opens : Bool) (moves : List Move) :
    (machine.run (init opens) moves).Exclusive :=
  run_of_moves (fun _ c hs => hs.startCall c) (fun _ hs => hs.controlStep)
    (fun _ opens hs => hs.workerStep opens) (init_exclusive opens) moves

/-! ## Who uses which capture -/

/-- The captures that the control thread holds a reference to. -/
def Control.held : Control → Option ℕ
  | .loadOpened cap => cap
  | .reading cap => some cap
  | .storeClosed old _ => old
  | .releaseOld old _ => old
  | _ => none

/-- The capture that a call of `release` has detached. -/
def Control.detached : Control → Option ℕ
  | .storeClosed old _ => old
  | .releaseOld old _ => old
  | _ => none

/-- The capture that the worker has opened and not installed yet. -/
def own (s : PipelineThreads) : Option ℕ :=
  match s.reconnectThread with
  | some (.install cap) => some cap
  | _ => none

/-- The live capture and those in use have not been released, and the worker
keeps its new capture to itself until it installs it. -/
structure Owned (s : PipelineThreads) : Prop where
  capture : ∀ c ∈ s.capture, c < s.built ∧ c ∉ s.released ∧
    s.metadata = some c
  held : ∀ c ∈ s.control.held, c < s.built ∧ c ∉ s.released
  detached : ∀ c ∈ s.control.detached, s.capture ≠ some c
  own : ∀ c ∈ s.own, c < s.built ∧ c ∉ s.released ∧ s.capture ≠ some c ∧
    c ∉ s.control.held
  released : ∀ c ∈ s.released, c < s.built

theorem init_owned (opens : Bool) : (init opens).Owned := by
  cases opens <;> constructor <;> simp [init, Control.held, Control.detached,
    PipelineThreads.own]

/-- Moves that touch no capture and take at most a new reference to the live
one. -/
theorem Owned.frame {s s' : PipelineThreads} (hs : s.Owned)
    (hcapture : s'.capture = s.capture) (hmetadata : s'.metadata = s.metadata)
    (hbuilt : s'.built = s.built) (hreleased : s'.released = s.released)
    (hown : s'.own = s.own)
    (hheld : ∀ c ∈ s'.control.held, c ∈ s.control.held ∨ c ∈ s.capture)
    (hdetached : ∀ c ∈ s'.control.detached, c ∈ s.control.detached) :
    s'.Owned where
  capture := by
    rw [hcapture, hbuilt, hreleased, hmetadata]
    exact hs.capture
  held := by
    rw [hbuilt, hreleased]
    intro c hc
    rcases hheld c hc with h | h
    · exact hs.held c h
    · exact ⟨(hs.capture c h).1, (hs.capture c h).2.1⟩
  detached := by
    rw [hcapture]
    exact fun c hc => hs.detached c (hdetached c hc)
  own := by
    rw [hown, hbuilt, hreleased, hcapture]
    intro c hc
    obtain ⟨hlt, hfresh, hlive, hfree⟩ := hs.own c hc
    refine ⟨hlt, hfresh, hlive, fun h => ?_⟩
    exact (hheld c h).elim hfree hlive
  released := by
    rw [hbuilt, hreleased]
    exact hs.released

theorem Owned.startCall {s : PipelineThreads} (hs : s.Owned)
    (c : PublicCall) : (s.startCall c).Owned := by
  unfold PipelineThreads.startCall
  split
  · cases c <;> refine hs.frame rfl rfl rfl rfl rfl ?_ ?_ <;>
      simp [Control.held, Control.detached]
  · exact hs

theorem Owned.detach {s : PipelineThreads} (hs : s.Owned) (last : Bool) :
    { s with
      capture := none
      control := .storeClosed s.capture last : PipelineThreads }.Owned where
  capture := by simp
  held := fun c hc => ⟨(hs.capture c hc).1, (hs.capture c hc).2.1⟩
  detached := by simp
  own := by
    intro c hc
    obtain ⟨hlt, hfresh, hlive, _⟩ := hs.own c hc
    exact ⟨hlt, hfresh, by simp, hlive⟩
  released := hs.released

theorem Owned.releaseOld {s : PipelineThreads} (hs : s.Owned)
    {old : Option ℕ} {last : Bool} (hcontrol : s.control = .releaseOld old last) :
    { s with
      released := old.toList ++ s.released
      control := if last then .destroyed else .idle : PipelineThreads }.Owned where
  capture := by
    intro c hc
    obtain ⟨hlt, hfresh, hmetadata⟩ := hs.capture c hc
    refine ⟨hlt, ?_, hmetadata⟩
    intro hmem
    rcases List.mem_append.mp hmem with hold | hmem
    · refine hs.detached c ?_ hc
      rw [hcontrol]
      exact Option.mem_toList.mp hold
    · exact hfresh hmem
  held := by cases last <;> simp [Control.held]
  detached := by cases last <;> simp [Control.detached]
  own := by
    intro c hc
    obtain ⟨hlt, hfresh, hlive, hfree⟩ := hs.own c hc
    rw [hcontrol] at hfree
    refine ⟨hlt, ?_, hlive, by cases last <;> simp [Control.held]⟩
    intro hmem
    rcases List.mem_append.mp hmem with hold | hmem
    · exact hfree (Option.mem_toList.mp hold)
    · exact hfresh hmem
  released := by
    intro c hmem
    rcases List.mem_append.mp hmem with hold | hmem
    · refine (hs.held c ?_).1
      rw [hcontrol]
      exact Option.mem_toList.mp hold
    · exact hs.released c hmem

/-- A step that only moves the control thread on, to where it holds nothing. -/
theorem Owned.goto {s s' : PipelineThreads} (hs : s.Owned)
    (hcapture : s'.capture = s.capture) (hmetadata : s'.metadata = s.metadata)
    (hbuilt : s'.built = s.built) (hreleased : s'.released = s.released)
    (hown : s'.own = s.own) (hheld : s'.control.held = none)
    (hdetached : s'.control.detached = none) : s'.Owned :=
  hs.frame hcapture hmetadata hbuilt hreleased hown
    (fun c hc => by rw [hheld] at hc; cases hc)
    (fun c hc => by rw [hdetached] at hc; cases hc)

/-- A worker that has ended owns nothing, and can be joined. -/
theorem Owned.joined {s : PipelineThreads} (hs : s.Owned)
    (hdone : s.reconnectThread = some .done) {c : Control}
    (hheld : c.held = none) (hdetached : c.detached = none) :
    { s with reconnectThread := none, control := c : PipelineThreads }.Owned :=
  hs.goto rfl rfl rfl rfl (by simp [PipelineThreads.own, hdone]) hheld hdetached

theorem Owned.controlStep {s : PipelineThreads} (hs : s.Owned) :
    s.controlStep.Owned := by
  unfold PipelineThreads.controlStep
  cases hcontrol : s.control with
  | idle => exact hs
  | readLock =>
      exact hs.frame rfl rfl rfl rfl rfl (fun c hc => Or.inr hc)
        (by simp [Control.detached])
  | loadOpened cap =>
      cases cap with
      | none => exact hs.goto rfl rfl rfl rfl rfl rfl rfl
      | some cap =>
          dsimp only
          split_ifs
          · exact hs.goto rfl rfl rfl rfl rfl rfl rfl
          · refine hs.frame rfl rfl rfl rfl rfl ?_ (by simp [Control.detached])
            rw [hcontrol]
            exact fun c hc => Or.inl hc
  | reading cap => exact hs.goto rfl rfl rfl rfl rfl rfl rfl
  | compareExchange =>
      dsimp only
      split_ifs <;> exact hs.goto rfl rfl rfl rfl rfl rfl rfl
  | join =>
      cases hthread : s.reconnectThread with
      | none =>
          exact hs.goto rfl rfl rfl rfl (by simp [PipelineThreads.own, hthread]) rfl
            rfl
      | some w =>
          cases w with
          | done => exact hs.joined hthread rfl rfl
          | _ => exact hs
  | spawn =>
      cases hthread : s.reconnectThread with
      | none =>
          exact hs.goto rfl rfl rfl rfl (by simp [PipelineThreads.own, hthread]) rfl
            rfl
      | some w =>
          exact hs.goto rfl rfl rfl rfl (by simp [PipelineThreads.own, hthread]) rfl
            rfl
  | detach last => exact hs.detach last
  | storeClosed old last =>
      refine hs.frame rfl rfl rfl rfl rfl ?_ ?_
      · rw [hcontrol]
        exact fun c hc => Or.inl hc
      · rw [hcontrol]
        exact fun c hc => hc
  | releaseOld old last => exact hs.releaseOld hcontrol
  | storeStop => exact hs.goto rfl rfl rfl rfl rfl rfl rfl
  | joinLast =>
      cases hthread : s.reconnectThread with
      | none =>
          exact hs.goto rfl rfl rfl rfl (by simp [PipelineThreads.own, hthread]) rfl
            rfl
      | some w =>
          cases w with
          | done => exact hs.joined hthread rfl rfl
          | _ => exact hs
  | destroyed => exact hs
  | terminated => exact hs

theorem Owned.install {s : PipelineThreads} (hs : s.Owned) {cap : ℕ}
    (hworker : s.reconnectThread = some (.install cap)) :
    { s with
      capture := some cap
      metadata := some cap
      reconnectThread := some .storeOpened : PipelineThreads }.Owned := by
  have hown : s.own = some cap := by simp [PipelineThreads.own, hworker]
  obtain ⟨hlt, hfresh, _, hfree⟩ := hs.own cap hown
  constructor
  · rintro c ⟨⟩
    exact ⟨hlt, hfresh, rfl⟩
  · exact hs.held
  · intro c hc
    rintro ⟨⟩
    refine hfree ?_
    change s.control.detached = some cap at hc
    change s.control.held = some cap
    cases hcontrol : s.control <;> simp_all [Control.held, Control.detached]
  · simp [PipelineThreads.own]
  · exact hs.released

theorem Owned.opened {s : PipelineThreads} (hs : s.Owned) :
    { s with
      built := s.built + 1
      reconnectThread := some (.install s.built) : PipelineThreads }.Owned where
  capture := fun c hc =>
    ⟨Nat.lt_succ_of_lt (hs.capture c hc).1, (hs.capture c hc).2⟩
  held := fun c hc => ⟨Nat.lt_succ_of_lt (hs.held c hc).1, (hs.held c hc).2⟩
  detached := hs.detached
  own := by
    rintro c ⟨⟩
    refine ⟨Nat.lt_succ_self _, ?_, ?_, ?_⟩
    · exact fun h => lt_irrefl _ (hs.released _ h)
    · exact fun h => lt_irrefl _ (hs.capture _ h).1
    · exact fun h => lt_irrefl _ (hs.held _ h).1
  released := fun c hc => Nat.lt_succ_of_lt (hs.released c hc)

/-- A step of a worker that owns nothing before it and nothing after it. -/
theorem Owned.onward {s s' : PipelineThreads} (hs : s.Owned)
    (hcapture : s'.capture = s.capture) (hmetadata : s'.metadata = s.metadata)
    (hbuilt : s'.built = s.built) (hreleased : s'.released = s.released)
    (hcontrol : s'.control = s.control) (hbefore : s.own = none)
    (hafter : s'.own = none) : s'.Owned :=
  hs.frame hcapture hmetadata hbuilt hreleased (hafter.trans hbefore.symm)
    (fun _ hc => Or.inl (hcontrol ▸ hc)) (fun _ hc => hcontrol ▸ hc)

theorem Owned.workerStep {s : PipelineThreads} (hs : s.Owned)
    (opens : Bool) : (s.workerStep opens).Owned := by
  unfold PipelineThreads.workerStep
  cases hworker : s.reconnectThread with
  | none => exact hs
  | some w =>
      have hbefore : (∀ cap, w ≠ .install cap) → s.own = none := by
        intro hw
        rw [PipelineThreads.own, hworker]
        cases w with
        | install cap => exact absurd rfl (hw cap)
        | _ => rfl
      cases w with
      | backoff i =>
          dsimp only
          split_ifs <;> exact hs.onward rfl rfl rfl rfl rfl (hbefore nofun) rfl
      | stopCheck =>
          dsimp only
          split_ifs <;> exact hs.onward rfl rfl rfl rfl rfl (hbefore nofun) rfl
      | clearStopped => exact hs.onward rfl rfl rfl rfl rfl (hbefore nofun) rfl
      | opening =>
          dsimp only
          split_ifs
          · exact hs.opened
          · exact hs.onward rfl rfl rfl rfl rfl (hbefore nofun) rfl
      | install cap => exact hs.install hworker
      | storeOpened => exact hs.onward rfl rfl rfl rfl rfl (hbefore nofun) rfl
      | clear => exact hs.onward rfl rfl rfl rfl rfl (hbefore nofun) rfl
      | lowered => exact hs.onward rfl rfl rfl rfl rfl (hbefore nofun) rfl
      | done => exact hs

theorem run_owned (opens : Bool) (moves : List Move) :
    (machine.run (init opens) moves).Owned :=
  run_of_moves (fun _ c hs => hs.startCall c) (fun _ hs => hs.controlStep)
    (fun _ opens hs => hs.workerStep opens) (init_owned opens) moves

/-! ## The destructor -/

/-- The destructor has stored the stop token. -/
def Control.Leaving : Control → Prop
  | .joinLast => True
  | .detach last => last = true
  | .storeClosed _ last => last = true
  | .releaseOld _ last => last = true
  | .destroyed => True
  | _ => False

instance : DecidablePred Control.Leaving
  | .joinLast | .destroyed => isTrue trivial
  | .detach last | .storeClosed _ last | .releaseOld _ last =>
      inferInstanceAs (Decidable (last = true))
  | .idle | .readLock | .loadOpened _ | .reading _ | .compareExchange | .join
  | .spawn | .storeStop | .terminated => isFalse id

/-- The moves of the control thread that are left to the destructor. -/
def Control.movesLeft : Control → ℕ
  | .joinLast => 4
  | .detach _ => 3
  | .storeClosed _ _ => 2
  | .releaseOld _ _ => 1
  | _ => 0

/-- The moves of the worker that are left once the stop token is stored. -/
def workerMovesLeft (s : PipelineThreads) : ℕ :=
  match s.reconnectThread with
  | none => 0
  | some .done => 0
  | some .lowered => 1
  | some .clear => 2
  | some .clearStopped => 2
  | some .storeOpened => 3
  | some .stopCheck => 3
  | some (.install _) => 4
  | some (.backoff _) => 4
  | some .opening => 5

/-- What the destructor has done so far.  From the join on there is no worker,
so what it takes away stays away. -/
structure Torn (s : PipelineThreads) : Prop where
  leaving : s.control.Leaving
  stopped : s.stop = true
  reaped : s.control.movesLeft < 4 → s.reconnectThread = none
  emptied : s.control.movesLeft < 3 → s.capture = none
  closed : s.control.movesLeft < 2 → s.opened = false

theorem Torn.startCall {s : PipelineThreads} (hs : s.Torn) (c : PublicCall) :
    s.startCall c = s := by
  have hleaving := hs.leaving
  unfold PipelineThreads.startCall
  split
  · rename_i hidle
    rw [hidle] at hleaving
    exact hleaving.elim
  · rfl

theorem workerMovesLeft_eq_zero_iff {s : PipelineThreads} :
    s.workerMovesLeft = 0 ↔ ¬ s.Busy := by
  unfold workerMovesLeft Busy
  split <;> simp_all

theorem Torn.controlStep {s : PipelineThreads} (hs : s.Torn) :
    s.controlStep.Torn ∧
      s.controlStep.workerMovesLeft ≤ s.workerMovesLeft ∧
      (¬ s.Busy → s.controlStep.control.movesLeft ≤
        s.control.movesLeft - 1) := by
  obtain ⟨hleaving, hstopped, hreaped, hemptied, hclosed⟩ := hs
  cases hcontrol : s.control with
  | joinLast =>
      cases hthread : s.reconnectThread with
      | none =>
          refine ⟨⟨?_, ?_, ?_, ?_, ?_⟩, ?_, ?_⟩ <;>
            simp [PipelineThreads.controlStep, hcontrol, hthread, hstopped,
              Control.Leaving, Control.movesLeft, workerMovesLeft]
      | some w =>
          cases w <;> refine ⟨⟨?_, ?_, ?_, ?_, ?_⟩, ?_, ?_⟩ <;>
            simp [PipelineThreads.controlStep, hcontrol, hthread, hstopped,
              Control.Leaving, Control.movesLeft, workerMovesLeft, Busy]
  | detach last =>
      simp only [hcontrol, Control.Leaving, Control.movesLeft]
        at hleaving hreaped
      refine ⟨⟨?_, ?_, ?_, ?_, ?_⟩, ?_, ?_⟩ <;>
        simp [PipelineThreads.controlStep, hcontrol, hstopped, hleaving, hreaped,
          Control.Leaving, Control.movesLeft, workerMovesLeft]
  | storeClosed old last =>
      simp only [hcontrol, Control.Leaving, Control.movesLeft]
        at hleaving hreaped hemptied
      refine ⟨⟨?_, ?_, ?_, ?_, ?_⟩, ?_, ?_⟩ <;>
        simp [PipelineThreads.controlStep, hcontrol, hstopped, hleaving, hreaped,
          hemptied, Control.Leaving, Control.movesLeft, workerMovesLeft]
  | releaseOld old last =>
      simp only [hcontrol, Control.Leaving, Control.movesLeft]
        at hleaving hreaped hemptied hclosed
      refine ⟨⟨?_, ?_, ?_, ?_, ?_⟩, ?_, ?_⟩ <;>
        simp [PipelineThreads.controlStep, hcontrol, hstopped, hleaving, hreaped,
          hemptied, hclosed, Control.Leaving, Control.movesLeft, workerMovesLeft]
  | destroyed =>
      have hsame : s.controlStep = s := by
        simp [PipelineThreads.controlStep, hcontrol]
      rw [hsame]
      refine ⟨⟨hleaving, hstopped, hreaped, hemptied, hclosed⟩, le_refl _, ?_⟩
      simp [hcontrol, Control.movesLeft]
  | _ => simp [hcontrol, Control.Leaving] at hleaving

theorem Torn.workerStep {s : PipelineThreads} (hs : s.Torn) (opens : Bool) :
    (s.workerStep opens).Torn ∧
      (s.workerStep opens).workerMovesLeft ≤ s.workerMovesLeft - 1 ∧
      (s.workerStep opens).control = s.control := by
  by_cases hjoining : s.control.movesLeft < 4
  · have hsame : s.workerStep opens = s := by
      simp [PipelineThreads.workerStep, hs.reaped hjoining]
    rw [hsame]
    refine ⟨hs, ?_, rfl⟩
    simp [workerMovesLeft, hs.reaped hjoining]
  · have hcontrol : (s.workerStep opens).control = s.control := by
      unfold PipelineThreads.workerStep
      repeat' split
      all_goals rfl
    have hstop : (s.workerStep opens).stop = s.stop := by
      unfold PipelineThreads.workerStep
      repeat' split
      all_goals rfl
    refine ⟨⟨?_, ?_, ?_, ?_, ?_⟩, ?_, hcontrol⟩
    · rw [hcontrol]
      exact hs.leaving
    · rw [hstop]
      exact hs.stopped
    · intro h
      rw [hcontrol] at h
      exact absurd h hjoining
    · intro h
      rw [hcontrol] at h
      omega
    · intro h
      rw [hcontrol] at h
      omega
    · have hstopped := hs.stopped
      cases hthread : s.reconnectThread with
      | none => simp [PipelineThreads.workerStep, workerMovesLeft, hthread]
      | some w =>
          cases w with
          | opening =>
              cases opens <;>
                simp [PipelineThreads.workerStep, workerMovesLeft, hthread]
          | _ =>
              simp [PipelineThreads.workerStep, workerMovesLeft, hthread,
                hstopped]

theorem controlStep_leaving {s : PipelineThreads}
    (hs : s.control.Leaving → s.Torn)
    (hleaving : s.controlStep.control.Leaving) : s.controlStep.Torn := by
  by_cases hbefore : s.control.Leaving
  · exact (hs hbefore).controlStep.1
  · cases hcontrol : s.control with
    | storeStop =>
        constructor <;>
          simp [PipelineThreads.controlStep, hcontrol, Control.Leaving,
            Control.movesLeft]
    | loadOpened cap =>
        cases cap with
        | none => simp [PipelineThreads.controlStep, hcontrol, Control.Leaving]
            at hleaving
        | some cap =>
            simp only [PipelineThreads.controlStep, hcontrol] at hleaving
            split_ifs at hleaving
            · exact hleaving.elim
            · exact hleaving.elim
    | compareExchange =>
        simp only [PipelineThreads.controlStep, hcontrol] at hleaving
        split_ifs at hleaving
        · exact hleaving.elim
        · exact hleaving.elim
    | join =>
        simp only [PipelineThreads.controlStep, hcontrol] at hleaving
        split at hleaving <;> simp_all [Control.Leaving]
    | spawn =>
        simp only [PipelineThreads.controlStep, hcontrol] at hleaving
        split at hleaving <;> simp [Control.Leaving] at hleaving
    | releaseOld old last =>
        cases last <;>
          simp [PipelineThreads.controlStep, hcontrol, Control.Leaving]
            at hbefore hleaving
    | _ =>
        simp_all [PipelineThreads.controlStep, Control.Leaving]

theorem startCall_leaving {s : PipelineThreads}
    (hs : s.control.Leaving → s.Torn) (c : PublicCall)
    (hleaving : (s.startCall c).control.Leaving) : (s.startCall c).Torn := by
  unfold PipelineThreads.startCall at hleaving ⊢
  split
  · rename_i hidle
    rw [hidle] at hleaving
    cases c <;> simp [Control.Leaving] at hleaving
  · rename_i hbusy
    refine hs ?_
    split at hleaving
    · rename_i hidle
      exact absurd hidle hbusy
    · exact hleaving

theorem workerStep_control (s : PipelineThreads) (opens : Bool) :
    (s.workerStep opens).control = s.control := by
  unfold PipelineThreads.workerStep
  repeat' split
  all_goals rfl

theorem run_torn (opens : Bool) (moves : List Move)
    (hleaving : (machine.run (init opens) moves).control.Leaving) :
    (machine.run (init opens) moves).Torn := by
  refine run_of_moves (I := fun s => s.control.Leaving → s.Torn)
    (fun _ c hs => startCall_leaving hs c)
    (fun _ hs => controlStep_leaving hs) ?_ ?_ moves hleaving
  · intro s opens hs hleaving
    rw [workerStep_control] at hleaving
    exact ((hs hleaving).workerStep opens).1
  · intro hleaving
    cases opens <;> exact hleaving.elim

/-! ## The protocol -/

/-- A control thread that has nothing to do but wait is between two calls, is
past the destructor, waits there for the worker, or waits in a trigger for a
worker that has lowered the flag; the next move of such a worker is its end.  No
thread is started over another. -/
theorem joins_only_lowered_workers (opens : Bool) (moves : List Move) :
    (machine.run (init opens) moves).control ≠ .terminated ∧
      ((machine.run (init opens) moves).controlStep =
          machine.run (init opens) moves →
        (machine.run (init opens) moves).control = .idle ∨
          (machine.run (init opens) moves).control = .destroyed ∨
          (machine.run (init opens) moves).control = .joinLast ∧
            (machine.run (init opens) moves).Busy ∨
          (machine.run (init opens) moves).control = .join ∧
            (machine.run (init opens) moves).reconnectThread = some .lowered) ∧
      ((machine.run (init opens) moves).control = .join →
        ∀ opened, ¬ ((machine.run (init opens) moves).workerStep opened).Busy) := by
  have hs := run_exclusive opens moves
  generalize machine.run (init opens) moves = s at hs
  refine ⟨hs.alive, fun hwaits => ?_, fun hjoin opened => ?_⟩
  · have hcontrol := congrArg PipelineThreads.control hwaits
    cases h : s.control with
    | idle => exact Or.inl rfl
    | destroyed => exact Or.inr (Or.inl rfl)
    | terminated => exact absurd h hs.alive
    | joinLast =>
        refine Or.inr (Or.inr (Or.inl ⟨rfl, ?_⟩))
        by_contra hidle
        cases hthread : s.reconnectThread with
        | none =>
            simp [PipelineThreads.controlStep, h, hthread] at hcontrol
        | some w =>
            have hdone : w = .done := by
              by_contra hne
              exact hidle ⟨w, hthread, hne⟩
            simp [PipelineThreads.controlStep, h, hthread, hdone] at hcontrol
    | join =>
        refine Or.inr (Or.inr (Or.inr ⟨rfl, ?_⟩))
        rcases hs.joined_thread h with hnone | hlowered | hdone
        · simp [PipelineThreads.controlStep, h, hnone] at hcontrol
        · exact hlowered
        · simp [PipelineThreads.controlStep, h, hdone] at hcontrol
    | spawn =>
        have hthread := hs.spawns h
        simp [PipelineThreads.controlStep, h, hthread] at hcontrol
    | loadOpened cap =>
        cases cap with
        | none => simp [PipelineThreads.controlStep, h] at hcontrol
        | some cap =>
            simp only [PipelineThreads.controlStep, h] at hcontrol
            split_ifs at hcontrol
    | compareExchange =>
        simp only [PipelineThreads.controlStep, h] at hcontrol
        split_ifs at hcontrol
    | releaseOld old last =>
        cases last <;> simp [PipelineThreads.controlStep, h] at hcontrol
    | _ => simp [PipelineThreads.controlStep, h] at hcontrol
  · rintro ⟨w, hw, hne⟩
    rcases hs.joined_thread hjoin with hnone | hlowered | hdone
    · simp [PipelineThreads.workerStep, hnone] at hw
    · simp only [PipelineThreads.workerStep, hlowered, Option.some.injEq] at hw
      exact hne hw.symm
    · simp only [PipelineThreads.workerStep, hdone, Option.some.injEq] at hw
      exact hne hw.symm

/-- A capture that is live or that the control thread is using has not been
released and is not the one the worker is about to install, and the stored frame
size and rate are those of the live capture. -/
theorem captures_in_use (opens : Bool) (moves : List Move) (c : ℕ) :
    (c ∈ (machine.run (init opens) moves).capture →
        (machine.run (init opens) moves).metadata = some c) ∧
      (c ∈ (machine.run (init opens) moves).capture ∨
          c ∈ (machine.run (init opens) moves).control.held →
        c ∉ (machine.run (init opens) moves).released ∧
          c ∉ (machine.run (init opens) moves).own) := by
  have hs := run_owned opens moves
  generalize machine.run (init opens) moves = s at hs
  refine ⟨fun hc => (hs.capture c hc).2.2, ?_⟩
  rintro (hc | hc)
  · exact ⟨(hs.capture c hc).2.1, fun hown => (hs.own c hown).2.2.1 hc⟩
  · exact ⟨(hs.held c hc).2, fun hown => (hs.own c hown).2.2.2 hc⟩

def Move.isWorker : Move → Bool
  | .worker _ => true
  | _ => false

def Move.isControl : Move → Bool
  | .control => true
  | _ => false

theorem Torn.step {s : PipelineThreads} (hs : s.Torn) (m : Move) :
    (machine.step s m).Torn := by
  cases m with
  | call c =>
      have hsame : machine.step s (.call c) = s := hs.startCall c
      rw [hsame]
      exact hs
  | control => exact hs.controlStep.1
  | worker opens => exact (hs.workerStep opens).1

theorem Torn.run {s : PipelineThreads} (hs : s.Torn) (moves : List Move) :
    (machine.run s moves).Torn :=
  machine.run_invariant (fun _ m hs => hs.step m) moves hs

theorem Torn.workerMovesLeft_step {s : PipelineThreads} (hs : s.Torn)
    (m : Move) : (machine.step s m).workerMovesLeft ≤ s.workerMovesLeft ∧
      (m.isWorker = true →
        (machine.step s m).workerMovesLeft ≤ s.workerMovesLeft - 1) := by
  cases m with
  | call c =>
      have hsame : machine.step s (.call c) = s := hs.startCall c
      rw [hsame]
      exact ⟨le_refl _, by simp [Move.isWorker]⟩
  | control => exact ⟨hs.controlStep.2.1, by simp [Move.isWorker]⟩
  | worker opens =>
      have hstep := (hs.workerStep opens).2.1
      exact ⟨hstep.trans (Nat.sub_le _ _), fun _ => hstep⟩

theorem Torn.movesLeft_step {s : PipelineThreads} (hs : s.Torn)
    (hidle : ¬ s.Busy) (m : Move) :
    (machine.step s m).control.movesLeft ≤ s.control.movesLeft ∧
      (m.isControl = true →
        (machine.step s m).control.movesLeft ≤ s.control.movesLeft - 1) := by
  cases m with
  | call c =>
      have hsame : machine.step s (.call c) = s := hs.startCall c
      rw [hsame]
      exact ⟨le_refl _, by simp [Move.isControl]⟩
  | control =>
      have hstep := hs.controlStep.2.2 hidle
      exact ⟨hstep.trans (Nat.sub_le _ _), fun _ => hstep⟩
  | worker opens =>
      have hsame : (machine.step s (.worker opens)).control = s.control :=
        workerStep_control s opens
      rw [hsame]
      exact ⟨le_refl _, by simp [Move.isControl]⟩

theorem workerMovesLeft_le (s : PipelineThreads) : s.workerMovesLeft ≤ 5 := by
  unfold workerMovesLeft
  split <;> decide

/-- Once the destructor has stored the stop token it completes, however the two
threads take turns: five moves of the worker end the worker, four moves of the
control thread end the destructor, and nothing is left behind. -/
theorem destructor_completes (opens : Bool) (moves first second : List Move)
    (hleaving : (machine.run (init opens) moves).control.Leaving)
    (hworker : 5 ≤ first.countP Move.isWorker)
    (hcontrol : 4 ≤ second.countP Move.isControl) :
    (machine.run (init opens) (moves ++ first ++ second)).control = .destroyed ∧
      (machine.run (init opens) (moves ++ first ++ second)).reconnectThread =
        none ∧
      (machine.run (init opens) (moves ++ first ++ second)).capture = none ∧
      (machine.run (init opens) (moves ++ first ++ second)).opened = false := by
  have hs := run_torn opens moves hleaving
  rw [Machine.run_append, Machine.run_append]
  generalize machine.run (init opens) moves = s at hs
  have hjoined : (machine.run s first).workerMovesLeft = 0 := by
    have hcount := machine.run_countdown Torn workerMovesLeft Move.isWorker
      (fun _ m hs => Torn.step hs m) (fun _ m hs => (hs.workerMovesLeft_step m).1)
      (fun _ m hs => (hs.workerMovesLeft_step m).2) first hs
    have := s.workerMovesLeft_le
    omega
  have hfirst := hs.run first
  generalize machine.run s first = u at hjoined hfirst
  have hleft : (machine.run u second).control.movesLeft = 0 := by
    have hcount := machine.run_countdown
      (fun s => s.Torn ∧ s.workerMovesLeft = 0)
      (fun s => s.control.movesLeft) Move.isControl
      (fun _ m hs => ⟨hs.1.step m, by
        have := (hs.1.workerMovesLeft_step m).1
        omega⟩)
      (fun _ m hs =>
        (hs.1.movesLeft_step (workerMovesLeft_eq_zero_iff.mp hs.2) m).1)
      (fun _ m hs =>
        (hs.1.movesLeft_step (workerMovesLeft_eq_zero_iff.mp hs.2) m).2)
      second ⟨hfirst, hjoined⟩
    have hle : u.control.movesLeft ≤ 4 := by
      unfold Control.movesLeft
      split <;> decide
    omega
  have hlast := hfirst.run second
  generalize machine.run u second = v at hleft hlast
  refine ⟨?_, hlast.reaped (by omega), hlast.emptied (by omega),
    hlast.closed (by omega)⟩
  have hleaving := hlast.leaving
  cases h : v.control <;>
    simp [h, Control.Leaving, Control.movesLeft] at hleaving hleft ⊢

/-- The program ends while the worker backs off. -/
def endsReconnecting : List Move :=
  [.call .triggerReconnectAsync, .control, .control, .control, .worker true,
    .call .destructor, .control]

def backsOut : List Move :=
  [.worker true, .control, .worker true, .worker true, .worker true,
    .worker true]

theorem destructor_completes_reconnecting :
    (machine.run (init true) (endsReconnecting ++ backsOut ++
        List.replicate 4 .control)).control = .destroyed ∧
      (machine.run (init true) (endsReconnecting ++ backsOut ++
        List.replicate 4 .control)).reconnectThread = none ∧
      (machine.run (init true) (endsReconnecting ++ backsOut ++
        List.replicate 4 .control)).capture = none ∧
      (machine.run (init true) (endsReconnecting ++ backsOut ++
        List.replicate 4 .control)).opened = false :=
  destructor_completes true endsReconnecting backsOut (List.replicate 4 .control)
    (by decide) (by decide) (by decide)

end PipelineThreads

end Semaforo
