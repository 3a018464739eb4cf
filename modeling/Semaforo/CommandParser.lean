import Semaforo.Commands
import Mathlib.Tactic

/-!
# The command parser

A translation of `CommandParser::parse` from
`edge/include/semaforo/command_parser.hpp`.  The JSON library is a parameter: a
function from bytes to a JSON value, with `none` for a discarded document.  Of a
value the model keeps the type, which is what the type checks ask for, and the
members of an object.  Integers are stored in 64 bits, signed or unsigned, and
are narrowed when they are read.
-/

namespace Semaforo

/-- An integer that the JSON library keeps as an integer; literals outside this
range are read as floating-point numbers. -/
abbrev JsonInteger := {i : ℤ // -2 ^ 63 ≤ i ∧ i < 2 ^ 64}

inductive Json where
  | null
  | bool (value : Bool)
  | integer (value : JsonInteger)
  | float
  | string (value : String)
  | array (items : List Json)
  | object (members : List (String × Json))

/-- The value of a 64-bit signed integer after wrapping around. -/
def wrap64 (i : ℤ) : ℤ := i.bmod (2 ^ 64)

/-- `get<std::int64_t>()`. -/
def JsonInteger.getInt64 (i : JsonInteger) : ℤ := wrap64 i

def encodeUtf8 (s : String) : List UInt8 :=
  s.toList.flatMap String.utf8EncodeChar

/-- Why a payload is rejected. -/
structure Rejection where
  status : CommandStatus
  detail : String
  deriving DecidableEq, Repr

def ParsedCommand.reject (cmd : ParsedCommand) (why : Rejection) :
    ParsedCommand :=
  { cmd with status := why.status, detail := why.detail }

/-- A required member of type string. -/
def requireString (members : List (String × Json)) (field : String) :
    Except Rejection String :=
  match members.lookup field with
  | none => .error ⟨.missingField, "missing '" ++ field ++ "'"⟩
  | some (.string s) => .ok s
  | some _ => .error ⟨.wrongType, "'" ++ field ++ "' is not a string"⟩

/-- A required member of type integer. -/
def requireInteger (members : List (String × Json)) (field : String) :
    Except Rejection JsonInteger :=
  match members.lookup field with
  | none => .error ⟨.missingField, "missing '" ++ field ++ "'"⟩
  | some (.integer i) => .ok i
  | some _ => .error ⟨.wrongType, "'" ++ field ++ "' is not an integer"⟩

/-- `CommandParser::MAX_PAYLOAD_BYTES`. -/
def maxPayloadBytes : ℕ := 8 * 1024

structure CommandParser where
  maxAgeMs : ℤ := 2000
  maxFutureSkewMs : ℤ := 1000
  deriving DecidableEq, Repr

namespace CommandParser

/-- Part 5 of `parse`: the timestamp and the freshness gate.  The age of a
timestamp far below zero overflows; it is taken to wrap around. -/
def parseTimestamp (p : CommandParser) (members : List (String × Json))
    (nowMs : ℤ) (cmd : ParsedCommand) : ParsedCommand :=
  match requireInteger members "timestamp" with
  | .error why => cmd.reject why
  | .ok t =>
      let cmd := { cmd with
        timestampMs := t.getInt64
        ageMs := wrap64 (nowMs - t.getInt64) }
      if cmd.ageMs < -p.maxFutureSkewMs then
        cmd.reject ⟨.futureTimestamp,
          "timestamp " ++ toString (wrap64 (-cmd.ageMs)) ++
            "ms in the future"⟩
      else if p.maxAgeMs < cmd.ageMs then
        cmd.reject ⟨.stale,
          "command age " ++ toString cmd.ageMs ++ "ms exceeds budget " ++
            toString p.maxAgeMs ++ "ms"⟩
      else { cmd with status := .ok, detail := "ok" }

/-- Part 4b: the sequence number. -/
def parseSequence (p : CommandParser) (members : List (String × Json))
    (nowMs : ℤ) (cmd : ParsedCommand) : ParsedCommand :=
  match requireInteger members "sequence_number" with
  | .error why => cmd.reject why
  | .ok n =>
      p.parseTimestamp members nowMs { cmd with sequenceNumber := n.getInt64 }

/-- Part 4: the optional priority. -/
def parsePriority (members : List (String × Json)) (cmd : ParsedCommand) :
    ParsedCommand :=
  match members.lookup "priority" with
  | some (.string s) => { cmd with priority := s }
  | _ => cmd

/-- Part 3: the phase. -/
def parsePhase (p : CommandParser) (members : List (String × Json))
    (nowMs : ℤ) (cmd : ParsedCommand) : ParsedCommand :=
  match requireString members "phase" with
  | .error why => cmd.reject why
  | .ok name =>
      match phaseFromString name with
      | none =>
          cmd.reject ⟨.invalidPhase, "unknown phase '" ++ name ++ "'"⟩
      | some phase =>
          p.parseSequence members nowMs
            (parsePriority members { cmd with phase := phase })

/-- Part 2: the action. -/
def parseAction (p : CommandParser) (members : List (String × Json))
    (nowMs : ℤ) (cmd : ParsedCommand) : ParsedCommand :=
  match requireString members "action" with
  | .error why => cmd.reject why
  | .ok action =>
      let cmd := { cmd with action := action }
      if action ≠ "CHANGE_PHASE" then
        cmd.reject ⟨.unknownAction, "unsupported action '" ++ action ++ "'"⟩
      else p.parsePhase members nowMs cmd

/-- The whole of `parse`.  No access below can throw, since every member is
looked up and type-checked before it is read, so the `catch` clauses do not
run. -/
def parse (p : CommandParser) (parseJson : List UInt8 → Option Json)
    (raw : List UInt8) (nowMs : ℤ) : ParsedCommand :=
  let cmd : ParsedCommand := {}
  if raw = [] then cmd.reject ⟨.empty, "empty payload"⟩
  else if maxPayloadBytes < raw.length then
    cmd.reject ⟨.oversized,
      "payload " ++ toString raw.length ++ "B exceeds limit " ++
        toString maxPayloadBytes ++ "B"⟩
  else
    match parseJson raw with
    | none => cmd.reject ⟨.malformedJson, "invalid JSON syntax"⟩
    | some (.object members) => p.parseAction members nowMs cmd
    | some _ =>
        cmd.reject ⟨.notAnObject, "top-level JSON is not an object"⟩

end CommandParser

/-! ## The acceptance condition -/

/-- The phases that can be commanded, with their names on the wire. -/
def operationalPhases : List (String × Phase) :=
  [("GREEN_NS", .greenNS), ("YELLOW_NS", .yellowNS), ("ALL_RED", .allRed),
    ("GREEN_EW", .greenEW), ("YELLOW_EW", .yellowEW),
    ("GREEN_NS_LEFT", .greenNSLeft), ("GREEN_EW_LEFT", .greenEWLeft)]

theorem phaseFromString_eq_some_iff {name : String} {phase : Phase} :
    phaseFromString name = some phase ↔ (name, phase) ∈ operationalPhases := by
  unfold phaseFromString operationalPhases
  constructor
  · intro h
    split_ifs at h with h1 h2 h3 h4 h5 h6 h7 <;>
      · obtain rfl := Option.some.inj h
        simp [*]
  · intro h
    simp only [List.mem_cons, Prod.mk.injEq, List.not_mem_nil, or_false] at h
    rcases h with ⟨rfl, rfl⟩ | ⟨rfl, rfl⟩ | ⟨rfl, rfl⟩ | ⟨rfl, rfl⟩ |
      ⟨rfl, rfl⟩ | ⟨rfl, rfl⟩ | ⟨rfl, rfl⟩ <;> decide

theorem not_isFlash_of_operational {name : String} {phase : Phase}
    (hphase : (name, phase) ∈ operationalPhases) : isFlash phase = false := by
  simp only [operationalPhases, List.mem_cons, Prod.mk.injEq,
    List.not_mem_nil, or_false] at hphase
  rcases hphase with ⟨_, rfl⟩ | ⟨_, rfl⟩ | ⟨_, rfl⟩ | ⟨_, rfl⟩ | ⟨_, rfl⟩ |
    ⟨_, rfl⟩ | ⟨_, rfl⟩ <;> rfl

theorem requireString_eq_ok_iff {members : List (String × Json)}
    {field s : String} :
    requireString members field = .ok s ↔
      members.lookup field = some (.string s) := by
  unfold requireString
  cases hlookup : members.lookup field with
  | none => simp
  | some value => cases value <;> simp

theorem requireInteger_eq_ok_iff {members : List (String × Json)}
    {field : String} {i : JsonInteger} :
    requireInteger members field = .ok i ↔
      members.lookup field = some (.integer i) := by
  unfold requireInteger
  cases hlookup : members.lookup field with
  | none => simp
  | some value => cases value <;> simp

theorem requireInteger_exists_iff {members : List (String × Json)}
    {field : String} :
    (∃ i, requireInteger members field = .ok i) ↔
      ∃ i, members.lookup field = some (.integer i) := by
  simp only [requireInteger_eq_ok_iff]

/-- No way of rejecting a member is called `OK`. -/
theorem requireString_error_status {members : List (String × Json)}
    {field : String} {why : Rejection}
    (herror : requireString members field = .error why) :
    why.status ≠ .ok := by
  unfold requireString at herror
  split at herror
  · obtain rfl := Except.error.inj herror
    simp
  · contradiction
  · obtain rfl := Except.error.inj herror
    simp

theorem requireInteger_error_status {members : List (String × Json)}
    {field : String} {why : Rejection}
    (herror : requireInteger members field = .error why) :
    why.status ≠ .ok := by
  unfold requireInteger at herror
  split at herror
  · obtain rfl := Except.error.inj herror
    simp
  · contradiction
  · obtain rfl := Except.error.inj herror
    simp

namespace CommandParser

variable {p : CommandParser} {members : List (String × Json)} {nowMs : ℤ}
  {cmd : ParsedCommand} {phase : Phase}

/-- The freshness gate, on the values that it computes. -/
def Timely (p : CommandParser) (nowMs : ℤ) (t : JsonInteger) : Prop :=
  ¬ wrap64 (nowMs - t.getInt64) < -p.maxFutureSkewMs ∧
    ¬ p.maxAgeMs < wrap64 (nowMs - t.getInt64)

/-- The members of an object that `parse` accepts for the phase, with the gate
`timely` on the timestamp. -/
structure Commands (timely : JsonInteger → Prop)
    (members : List (String × Json)) (phase : Phase) : Prop where
  action : members.lookup "action" = some (.string "CHANGE_PHASE")
  phase : ∃ name, members.lookup "phase" = some (.string name) ∧
    (name, phase) ∈ operationalPhases
  sequence : ∃ n, members.lookup "sequence_number" = some (.integer n)
  timestamp : ∃ t, members.lookup "timestamp" = some (.integer t) ∧ timely t

theorem parseTimestamp_ok_iff :
    (p.parseTimestamp members nowMs cmd).status = .ok ↔
      ∃ t, members.lookup "timestamp" = some (.integer t) ∧
        p.Timely nowMs t := by
  simp only [← requireInteger_eq_ok_iff]
  unfold parseTimestamp Timely
  cases hfield : requireInteger members "timestamp" with
  | error why =>
      have hstatus := requireInteger_error_status hfield
      simpa [ParsedCommand.reject] using hstatus
  | ok t =>
      simp only [Except.ok.injEq, exists_eq_left']
      split_ifs with hfuture hstale
      · simp [ParsedCommand.reject, hfuture]
      · simp [ParsedCommand.reject, hstale]
      · simp [hfuture, hstale]

theorem parseTimestamp_phase :
    (p.parseTimestamp members nowMs cmd).phase = cmd.phase := by
  unfold parseTimestamp
  split
  · rfl
  · dsimp only
    split_ifs <;> rfl

theorem parseSequence_ok_iff :
    ((p.parseSequence members nowMs cmd).status = .ok ∧
        (p.parseSequence members nowMs cmd).phase = phase) ↔
      cmd.phase = phase ∧
        (∃ n, members.lookup "sequence_number" = some (.integer n)) ∧
        ∃ t, members.lookup "timestamp" = some (.integer t) ∧
          p.Timely nowMs t := by
  rw [← requireInteger_exists_iff]
  unfold parseSequence
  cases hfield : requireInteger members "sequence_number" with
  | error why =>
      have hstatus := requireInteger_error_status hfield
      simp [ParsedCommand.reject, hstatus]
  | ok n =>
      simp only [Except.ok.injEq, exists_eq', true_and,
        parseTimestamp_phase, parseTimestamp_ok_iff]
      exact and_comm

theorem parsePriority_phase :
    (parsePriority members cmd).phase = cmd.phase := by
  unfold parsePriority
  split <;> rfl

theorem parsePhase_ok_iff :
    ((p.parsePhase members nowMs cmd).status = .ok ∧
        (p.parsePhase members nowMs cmd).phase = phase) ↔
      (∃ name, members.lookup "phase" = some (.string name) ∧
        (name, phase) ∈ operationalPhases) ∧
        (∃ n, members.lookup "sequence_number" = some (.integer n)) ∧
        ∃ t, members.lookup "timestamp" = some (.integer t) ∧
          p.Timely nowMs t := by
  simp only [← requireString_eq_ok_iff, ← phaseFromString_eq_some_iff]
  unfold parsePhase
  cases hfield : requireString members "phase" with
  | error why =>
      have hstatus := requireString_error_status hfield
      simp [ParsedCommand.reject, hstatus]
  | ok name =>
      simp only [Except.ok.injEq, exists_eq_left']
      cases hphase : phaseFromString name with
      | none => simp [ParsedCommand.reject]
      | some named =>
          simp only [parseSequence_ok_iff, parsePriority_phase,
            Option.some.injEq]

theorem parseAction_ok_iff :
    ((p.parseAction members nowMs cmd).status = .ok ∧
        (p.parseAction members nowMs cmd).phase = phase) ↔
      Commands (p.Timely nowMs) members phase := by
  have hcommands : Commands (p.Timely nowMs) members phase ↔
      members.lookup "action" = some (.string "CHANGE_PHASE") ∧
        (p.parsePhase members nowMs
          { cmd with action := "CHANGE_PHASE" }).status = .ok ∧
        (p.parsePhase members nowMs
          { cmd with action := "CHANGE_PHASE" }).phase = phase := by
    rw [parsePhase_ok_iff]
    exact ⟨fun ⟨haction, hphase, hseq, ht⟩ => ⟨haction, hphase, hseq, ht⟩,
      fun ⟨haction, hphase, hseq, ht⟩ => ⟨haction, hphase, hseq, ht⟩⟩
  rw [hcommands, ← requireString_eq_ok_iff]
  unfold parseAction
  cases hfield : requireString members "action" with
  | error why =>
      have hstatus := requireString_error_status hfield
      simp [ParsedCommand.reject, hstatus]
  | ok action =>
      by_cases haction : action = "CHANGE_PHASE"
      · simp [haction]
      · simp [ParsedCommand.reject, haction]

/-- The payloads that `parse` accepts. -/
structure Accepts (timely : JsonInteger → Prop)
    (parseJson : List UInt8 → Option Json) (raw : List UInt8)
    (phase : Phase) : Prop where
  nonempty : raw ≠ []
  small : raw.length ≤ 8192
  members : ∃ members, parseJson raw = some (.object members) ∧
    Commands timely members phase

theorem parse_ok_iff (parseJson : List UInt8 → Option Json)
    (raw : List UInt8) :
    ((p.parse parseJson raw nowMs).status = .ok ∧
        (p.parse parseJson raw nowMs).phase = phase) ↔
      Accepts (p.Timely nowMs) parseJson raw phase := by
  unfold parse
  by_cases hempty : raw = []
  · rw [if_pos hempty]
    constructor
    · simp [ParsedCommand.reject]
    · intro haccepts
      exact absurd hempty haccepts.nonempty
  rw [if_neg hempty]
  by_cases hlarge : maxPayloadBytes < raw.length
  · rw [if_pos hlarge]
    constructor
    · simp [ParsedCommand.reject]
    · intro haccepts
      have hsmall := haccepts.small
      simp only [maxPayloadBytes] at hlarge
      omega
  rw [if_neg hlarge]
  have hsmall : raw.length ≤ 8192 := not_lt.mp hlarge
  constructor
  · intro hok
    cases hjson : parseJson raw with
    | none => simp [hjson, ParsedCommand.reject] at hok
    | some root =>
        cases root with
        | object members =>
            rw [hjson] at hok
            exact ⟨hempty, hsmall, members, hjson, parseAction_ok_iff.mp hok⟩
        | _ => simp [hjson, ParsedCommand.reject] at hok
  · rintro ⟨_, _, members, hjson, hmembers⟩
    rw [hjson]
    exact parseAction_ok_iff.mpr hmembers

theorem parse_status_ok_iff (parseJson : List UInt8 → Option Json)
    (raw : List UInt8) :
    (p.parse parseJson raw nowMs).status = .ok ↔
      ∃ phase, Accepts (p.Timely nowMs) parseJson raw phase := by
  constructor
  · intro hstatus
    exact ⟨_, (parse_ok_iff parseJson raw).mp ⟨hstatus, rfl⟩⟩
  · rintro ⟨phase, haccepts⟩
    exact ((parse_ok_iff parseJson raw).mpr haccepts).1

/-! ## The freshness window -/

/-- The freshness window, with the timestamp read as a mathematical integer. -/
def Fresh (nowMs : ℤ) (t : JsonInteger) : Prop :=
  nowMs - 2000 ≤ t ∧ t ≤ nowMs + 1000

/-- Neither the narrowing of the timestamp nor the subtraction can wrap a value
from outside the window into it. -/
theorem timely_iff_fresh (hlow : 2000 ≤ nowMs) (hhigh : nowMs ≤ 2 ^ 62)
    (t : JsonInteger) : Timely {} nowMs t ↔ Fresh nowMs t := by
  obtain ⟨t, hmin, hmax⟩ := t
  simp only [Timely, Fresh, JsonInteger.getInt64, wrap64, Int.bmod_def]
  norm_num at hmin hmax hhigh ⊢
  split_ifs <;> omega

/-- What a payload must be to command the phase. -/
abbrev Admissible (parseJson : List UInt8 → Option Json) (raw : List UInt8)
    (nowMs : ℤ) (phase : Phase) : Prop :=
  Accepts (Fresh nowMs) parseJson raw phase

/-- What the parser promises about one payload. -/
structure Decides (parseJson : List UInt8 → Option Json) (raw : List UInt8)
    (nowMs : ℤ) : Prop where
  ok_iff : (parse {} parseJson raw nowMs).status = .ok ↔
    ∃ phase, Admissible parseJson raw nowMs phase
  named : (parse {} parseJson raw nowMs).status = .ok →
    Admissible parseJson raw nowMs (parse {} parseJson raw nowMs).phase ∧
      isFlash (parse {} parseJson raw nowMs).phase = false
  dropped : (¬ ∃ phase, Admissible parseJson raw nowMs phase) →
    (parse {} parseJson raw nowMs).isActionable = false

/-- A payload is accepted exactly when it is admissible, and then for the phase
that it names. -/
theorem parse_decides (parseJson : List UInt8 → Option Json)
    (raw : List UInt8) (nowMs : ℤ) (hlow : 2000 ≤ nowMs)
    (hhigh : nowMs ≤ 2 ^ 62) : Decides parseJson raw nowMs := by
  have hgate : Timely {} nowMs = Fresh nowMs := by
    funext t
    exact propext (timely_iff_fresh hlow hhigh t)
  have hok : (parse {} parseJson raw nowMs).status = .ok ↔
      ∃ phase, Admissible parseJson raw nowMs phase := by
    rw [parse_status_ok_iff, hgate]
  refine ⟨hok, ?_, ?_⟩
  · intro hstatus
    have hadmissible := (parse_ok_iff parseJson raw).mp ⟨hstatus, rfl⟩
    rw [hgate] at hadmissible
    refine ⟨hadmissible, ?_⟩
    obtain ⟨_, _, hcommands⟩ := hadmissible.members
    obtain ⟨_, _, hnamed⟩ := hcommands.phase
    exact not_isFlash_of_operational hnamed
  · intro hnot
    have hstatus : (parse {} parseJson raw nowMs).status ≠ .ok :=
      fun h => hnot (hok.mp h)
    simpa [ParsedCommand.isActionable] using hstatus

/-- The text of a command for the north-south green. -/
def commandText (sequenceNumber timestamp : JsonInteger) : List UInt8 :=
  encodeUtf8 ("\x7b\"action\":\"CHANGE_PHASE\",\"phase\":\"GREEN_NS\"," ++
    "\"sequence_number\":" ++ toString sequenceNumber.1 ++ ",\"timestamp\":" ++
    toString timestamp.1 ++ "\x7d")

/-- A decoder that knows this text only. -/
def commandDecoder (sequenceNumber timestamp : JsonInteger) (raw : List UInt8) :
    Option Json :=
  if raw = commandText sequenceNumber timestamp then
    some (.object [("action", .string "CHANGE_PHASE"),
      ("phase", .string "GREEN_NS"), ("sequence_number", .integer sequenceNumber),
      ("timestamp", .integer timestamp)])
  else none

theorem parse_decides_command :
    let parseJson := commandDecoder ⟨7, by decide⟩ ⟨1760000000000, by decide⟩
    let raw := commandText ⟨7, by decide⟩ ⟨1760000000000, by decide⟩
    (parse {} parseJson raw 1760000000500).status = .ok ∧
      Decides parseJson raw 1760000000500 :=
  ⟨by decide +kernel, parse_decides _ _ _ (by decide) (by decide)⟩

end CommandParser

end Semaforo
