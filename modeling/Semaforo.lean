import Semaforo.InterlockDwell
import Semaforo.NoFreeze
import Semaforo.CorruptClearance
import Semaforo.TerminalFlash
import Semaforo.EmergencyRing
import Semaforo.FaultFlapping
import Semaforo.RedRest
import Semaforo.SafetyInvariant
import Semaforo.CrossStreetService
import Semaforo.CoordinatorCommands
import Semaforo.SilenceWatchdog
import Semaforo.DirectiveAuthority
import Semaforo.InferenceRecovery
import Semaforo.HeartbeatWaveform
import Semaforo.EmergencyPreemption
import Semaforo.SequenceRestart
import Semaforo.OutageBuffering
import Semaforo.TrafficNetwork
import Semaforo.PolicyAgreement
import Semaforo.TrackerConfirmation
import Semaforo.TelemetryRoundTrip
import Semaforo.YoloDecoding
import Semaforo.Suppression
import Semaforo.LaneMembership
import Semaforo.Preprocessing
import Semaforo.CorridorPlan
import Semaforo.Corridors
import Semaforo.NetworkRouting
import Semaforo.TelemetryHandling
import Semaforo.BoundedQueues
import Semaforo.FallbackPolicy
import Semaforo.GreenWave
import Semaforo.Webster
import Semaforo.NightMode
import Semaforo.DirectionBuckets
import Semaforo.ParserArithmetic
import Semaforo.KalmanBoxFilter
import Semaforo.WaitTimes
import Semaforo.Spillback
import Semaforo.HungarianMatrix
import Semaforo.SignalClearance
import Semaforo.PipelineThreads
import Semaforo.SyncPulses
import Semaforo.CorridorAgents
import Semaforo.StatusTopic
import Semaforo.ScenarioRoutes
import Semaforo.Curriculum
import Semaforo.RingWalk
import Semaforo.Rewards
import Semaforo.SignalReading
import Semaforo.CorridorVector
import Semaforo.ShadowHarness
import Semaforo.FixedTimeBaseline
import Semaforo.TurningRoutes
import Semaforo.TelemetryDispatch
import Semaforo.CommandSubscription
