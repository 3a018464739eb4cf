import Semaforo.CommandParser
import Mathlib.Algebra.Order.Floor.Ring
import Mathlib.Data.Rat.Floor
import Mathlib.Tactic

/-!
# What the coordinator sends to the nodes

The three places of `network/coordinator` that publish on the command channel,
with the payloads as Python dictionaries and `json.dumps` as the text that goes
on the wire.  The timestamp of a payload is read from the clock before the text
is made and published, so that a publication comes with two readings.  Times,
distances and speeds are exact numbers, and the shortest path is part of the
event.
-/

namespace Semaforo

/-! ## Python dictionaries as JSON text -/

inductive PyValue where
  | int (value : ℤ)
  | str (value : String)
  deriving DecidableEq, Repr

/-- A dictionary with its insertion order. -/
abbrev PyDict := List (String × PyValue)

/-- `d[key] = value`. -/
def PyDict.set : PyDict → String → PyValue → PyDict
  | [], key, value => [(key, value)]
  | (k, v) :: d, key, value =>
      if k = key then (k, value) :: d else (k, v) :: PyDict.set d key value

/-- `\u` and four hexadecimal digits. -/
def unicodeEscape (n : ℕ) : List Char :=
  ['\\', 'u', Nat.digitChar (n / 4096 % 16), Nat.digitChar (n / 256 % 16),
    Nat.digitChar (n / 16 % 16), Nat.digitChar (n % 16)]

/-- How `json.dumps` writes a character of a string; what is not printable
ASCII is escaped, above the basic plane as a surrogate pair. -/
def escapeAscii (c : Char) : List Char :=
  if c = '"' then ['\\', '"']
  else if c = '\\' then ['\\', '\\']
  else if c = '\n' then ['\\', 'n']
  else if c = '\r' then ['\\', 'r']
  else if c = '\t' then ['\\', 't']
  else if c = '\x0c' then ['\\', 'f']
  else if c = '\x08' then ['\\', 'b']
  else if ' ' ≤ c ∧ c ≤ '~' then [c]
  else if c.toNat < 0x10000 then unicodeEscape c.toNat
  else
    unicodeEscape (0xd800 + (c.toNat - 0x10000) / 1024 % 1024) ++
      unicodeEscape (0xdc00 + (c.toNat - 0x10000) % 1024)

def dumpString (s : String) : String :=
  "\"" ++ String.ofList (s.toList.flatMap escapeAscii) ++ "\""

def PyValue.dump : PyValue → String
  | .int i => toString i
  | .str s => dumpString s

def dumpMembers : PyDict → String
  | [] => ""
  | [(key, value)] => dumpString key ++ ": " ++ value.dump
  | (key, value) :: d =>
      dumpString key ++ ": " ++ value.dump ++ ", " ++ dumpMembers d

/-- `json.dumps` of a dictionary without nesting. -/
def dumps (d : PyDict) : String := "\x7b" ++ dumpMembers d ++ "\x7d"

/-- The value that JSON gives to a Python value. -/
def PyValue.toJson : PyValue → Json
  | .int i => if h : -2 ^ 63 ≤ i ∧ i < 2 ^ 64 then .integer ⟨i, h⟩ else .float
  | .str s => .string s

def PyValue.Storable : PyValue → Prop
  | .int i => -2 ^ 63 ≤ i ∧ i < 2 ^ 64
  | .str _ => True

/-- The JSON library reads the text of a dictionary as an object with the same
members, except that it may discard a number that is no 64-bit integer. -/
def ReadsBack (parseJson : List UInt8 → Option Json) (d : PyDict) : Prop :=
  (parseJson (encodeUtf8 (dumps d)) = none ∧ ∃ m ∈ d, ¬ m.2.Storable) ∨
    ∃ members, parseJson (encodeUtf8 (dumps d)) = some (.object members) ∧
      ∀ key, members.lookup key = (d.lookup key).map PyValue.toJson

/-- `int()` of a number. -/
def pyInt (x : ℚ) : ℤ := if 0 ≤ x then ⌊x⌋ else ⌈x⌉

/-! ## The publications -/

/-- Which of the three paths has published. -/
inductive Origin where
  | phaseCommand
  | override
  | recovery
  deriving DecidableEq, Repr

/-- The clock as a payload is built, and as it is published. -/
structure Reading where
  built : ℚ
  published : ℚ
  deriving DecidableEq, Repr

namespace Reading

def builtMs (clock : Reading) : ℤ := pyInt (clock.built * 1000)

def publishedMs (clock : Reading) : ℤ := pyInt (clock.published * 1000)

end Reading

structure Publication where
  origin : Origin
  node : String
  payload : PyDict
  clock : Reading
  deriving DecidableEq, Repr

structure Road where
  distanceM : ℚ
  speedLimitKmh : ℚ
  deriving DecidableEq, Repr

/-- The roads of the topology, by their two ends. -/
abbrev RoadNetwork := String → String → Option Road

def getEdgeDistance (roads : RoadNetwork) (source target : String) : ℚ :=
  match roads source target with
  | some road => road.distanceM
  | none => 0

def getEdgeSpeedLimit (roads : RoadNetwork) (source target : String) : ℚ :=
  match roads source target with
  | some road => road.speedLimitKmh
  | none => 50

structure Coordinator where
  /-- The next value of the sequence counter. -/
  sequence : ℤ
  activeEmergencies : List (String × List String) := []
  deriving DecidableEq, Repr

/-- What happens to the coordinator.  Where a handler publishes several times,
`clock` gives the readings for each publication. -/
inductive CoordinatorEvent where
  | telemetry (node : String) (action : Fin 2) (clock : Reading)
  | timingPlan
  | emergency (emergencyId : String) (path : List String) (direction : String)
      (clock : ℕ → Reading)
  | cleared (emergencyId : String) (clock : ℕ → Reading)

/-- `_PHASE_BY_ACTION`. -/
def phaseByAction (action : Fin 2) : String :=
  if action = 0 then "GREEN_NS" else "GREEN_EW"

def buildPhaseCommand (phase priority : String) (clock : ℚ) : PyDict :=
  [("action", .str "CHANGE_PHASE"), ("phase", .str phase),
    ("priority", .str priority), ("timestamp", .int (pyInt (clock * 1000)))]

namespace Coordinator

/-- `_publish_json`: the payload that is sent, and the counter afterwards. -/
def publishJson (c : Coordinator) (payload : PyDict) : PyDict × Coordinator :=
  (payload.set "sequence_number" (.int c.sequence),
    { c with sequence := c.sequence + 1 })

/-- The estimated travel time between two intersections. -/
def travelTime (roads : RoadNetwork) (source target : String) : ℚ :=
  let speedMs := getEdgeSpeedLimit roads source target / (36 / 10)
  if 0 < speedMs then getEdgeDistance roads source target / speedMs else 0

def overrideCommand (upper : String → String) (emergencyId direction : String)
    (clock cumulativeDelay : ℚ) : PyDict :=
  [("timestamp", .int (pyInt ((clock + cumulativeDelay) * 1000))),
    ("action", .str "override"),
    ("phase", .str ("EMERGENCY_GREEN" ++ "_" ++ upper direction)),
    ("duration_s", .int 30), ("priority", .str "emergency"),
    ("plan_id", .str ("emergency-" ++ emergencyId))]

/-- The loop of `_clear_path` from its `i`-th round on. -/
def clearPath (roads : RoadNetwork) (upper : String → String)
    (emergencyId direction : String) (clock : ℕ → Reading) :
    ℕ → Option String → ℚ → List String → List Publication
  | _, _, _, [] => []
  | i, previous, cumulativeDelay, node :: path =>
      let cumulativeDelay :=
        match previous with
        | some source => cumulativeDelay + travelTime roads source node
        | none => cumulativeDelay
      { origin := .override
        node := node
        payload := overrideCommand upper emergencyId direction
          (clock i).built cumulativeDelay
        clock := clock i } ::
        clearPath roads upper emergencyId direction clock (i + 1) (some node)
          cumulativeDelay path

def recoveryCommand (emergencyId : String) (clock : ℚ) : PyDict :=
  [("timestamp", .int (pyInt (clock * 1000))), ("action", .str "set_phase"),
    ("phase", .str "RESTORE_NORMAL"), ("duration_s", .int 0),
    ("priority", .str "high"), ("plan_id", .str ("recovery-" ++ emergencyId))]

/-- The loop of `clear_emergency` from its `i`-th round on. -/
def restorePath (emergencyId : String) (clock : ℕ → Reading) :
    ℕ → List String → List Publication
  | _, [] => []
  | i, node :: path =>
      { origin := .recovery
        node := node
        payload := recoveryCommand emergencyId (clock i).built
        clock := clock i } ::
        restorePath emergencyId clock (i + 1) path

def handle (roads : RoadNetwork) (upper : String → String) (c : Coordinator) :
    CoordinatorEvent → Coordinator × List Publication
  | .telemetry node action clock =>
      let (payload, c) :=
        c.publishJson
          (buildPhaseCommand (phaseByAction action) "HIGH" clock.built)
      (c, [{ origin := .phaseCommand
             node := node
             payload := payload
             clock := clock }])
  | .timingPlan => ({ c with sequence := c.sequence + 1 }, [])
  | .emergency emergencyId path direction clock =>
      if path = [] then (c, [])
      else
        ({ c with
           activeEmergencies := (emergencyId, path) ::
            c.activeEmergencies.filter (·.1 ≠ emergencyId) },
          clearPath roads upper emergencyId direction clock 0 none 0 path)
  | .cleared emergencyId clock =>
      match c.activeEmergencies.lookup emergencyId with
      | none => (c, [])
      | some path =>
          ({ c with
             activeEmergencies :=
              c.activeEmergencies.filter (·.1 ≠ emergencyId) },
            restorePath emergencyId clock 0 path)

/-- Everything that a run of the coordinator publishes on the command
channel. -/
def publications (roads : RoadNetwork) (upper : String → String)
    (c : Coordinator) : List CoordinatorEvent → List Publication
  | [] => []
  | e :: events =>
      (c.handle roads upper e).2 ++
        publications roads upper (c.handle roads upper e).1 events

end Coordinator

/-! ## The size of a payload -/

theorem length_escapeAscii_le (c : Char) : (escapeAscii c).length ≤ 12 := by
  unfold escapeAscii
  split_ifs <;> simp [unicodeEscape]

theorem length_flatMap_le {α β : Type*} {f : α → List β} {n : ℕ}
    (hf : ∀ x, (f x).length ≤ n) (l : List α) :
    (l.flatMap f).length ≤ n * l.length := by
  induction l with
  | nil => simp
  | cons x l ih =>
      have hx := hf x
      simp only [List.flatMap_cons, List.length_append, List.length_cons]
      linarith

theorem length_dumpString_le (s : String) :
    (dumpString s).length ≤ 12 * s.length + 2 := by
  have hbody := length_flatMap_le length_escapeAscii_le s.toList
  simp only [dumpString, String.length_append, String.length_ofList]
  rw [String.length_toList] at hbody
  have hquote : String.length "\"" = 1 := rfl
  omega

theorem length_dump_int_le {i : ℤ} (hlow : -2 ^ 63 ≤ i) (hhigh : i < 2 ^ 64) :
    (PyValue.int i).dump.length ≤ 21 := by
  simp only [PyValue.dump, Int.toString_eq_repr]
  cases i with
  | ofNat n =>
      have hn : n < 10 ^ 20 := by
        have : (n : ℤ) < 2 ^ 64 := hhigh
        norm_num at this ⊢
        omega
      have := (Nat.length_repr_le_iff (by norm_num)).mpr hn
      simp only [Int.repr]
      omega
  | negSucc n =>
      have hn : n.succ < 10 ^ 20 := by
        have : -2 ^ 63 ≤ Int.negSucc n := hlow
        norm_num at this ⊢
        omega
      have := (Nat.length_repr_le_iff (by norm_num)).mpr hn
      simp only [Int.repr, String.length_append]
      have hsign : String.length "-" = 1 := rfl
      omega

theorem length_encodeUtf8_le (s : String) :
    (encodeUtf8 s).length ≤ 4 * s.length := by
  have hbytes := length_flatMap_le
    (fun c => (String.length_utf8EncodeChar c).trans_le c.utf8Size_le_four)
    s.toList
  rwa [String.length_toList] at hbytes

theorem encodeUtf8_dumps_ne_nil (d : PyDict) : encodeUtf8 (dumps d) ≠ [] := by
  intro hnil
  have hlength := congrArg List.length hnil
  have hbrace : 0 < '\x7b'.utf8Size := Char.utf8Size_pos _
  simp [encodeUtf8, dumps] at hlength
  omega

/-! ## Who is understood -/

/-- The payload that the first path sends. -/
def phasePayload (phase : String) (stampMs n : ℤ) : PyDict :=
  [("action", .str "CHANGE_PHASE"), ("phase", .str phase),
    ("priority", .str "HIGH"), ("timestamp", .int stampMs),
    ("sequence_number", .int n)]

/-- What every publication looks like, by its origin. -/
def Publication.Typical (p : Publication) : Prop :=
  match p.origin with
  | .phaseCommand => ∃ action n,
      p.payload = phasePayload (phaseByAction action) p.clock.builtMs n
  | .override => p.payload.lookup "action" = some (.str "override")
  | .recovery => p.payload.lookup "action" = some (.str "set_phase")

namespace Coordinator

theorem clearPath_typical (roads : RoadNetwork) (upper : String → String)
    (emergencyId direction : String) (clock : ℕ → Reading) (i : ℕ)
    (previous : Option String) (cumulativeDelay : ℚ) (path : List String) :
    ∀ p ∈ clearPath roads upper emergencyId direction clock i previous
      cumulativeDelay path, p.Typical := by
  induction path generalizing i previous cumulativeDelay with
  | nil => simp [clearPath]
  | cons node path ih =>
      intro p hp
      rcases List.mem_cons.mp hp with rfl | hrest
      · rfl
      · exact ih _ _ _ p hrest

theorem restorePath_typical (emergencyId : String) (clock : ℕ → Reading) (i : ℕ)
    (path : List String) :
    ∀ p ∈ restorePath emergencyId clock i path, p.Typical := by
  induction path generalizing i with
  | nil => simp [restorePath]
  | cons node path ih =>
      intro p hp
      rcases List.mem_cons.mp hp with rfl | hrest
      · rfl
      · exact ih _ p hrest

theorem handle_typical (roads : RoadNetwork) (upper : String → String)
    (c : Coordinator) (e : CoordinatorEvent) :
    ∀ p ∈ (c.handle roads upper e).2, p.Typical := by
  intro p hp
  cases e with
  | telemetry node action clock =>
      obtain rfl := List.mem_singleton.mp hp
      exact ⟨action, c.sequence, rfl⟩
  | timingPlan => simp [handle] at hp
  | emergency emergencyId path direction clock =>
      simp only [handle] at hp
      split_ifs at hp with hpath
      · simp at hp
      · exact clearPath_typical roads upper emergencyId direction clock 0 none
          0 path p hp
  | cleared emergencyId clock =>
      simp only [handle] at hp
      split at hp
      · simp at hp
      · exact restorePath_typical emergencyId clock 0 _ p hp

theorem publications_typical (roads : RoadNetwork) (upper : String → String)
    (c : Coordinator) (events : List CoordinatorEvent) :
    ∀ p ∈ c.publications roads upper events, p.Typical := by
  induction events generalizing c with
  | nil => simp [publications]
  | cons e events ih =>
      intro p hp
      rcases List.mem_append.mp hp with hfirst | hrest
      · exact handle_typical roads upper c e p hfirst
      · exact ih _ p hrest

end Coordinator

/-- The node accepts the bytes at every instant from the publication until 2000
milliseconds later. -/
def Publication.Understood (parseJson : List UInt8 → Option Json)
    (p : Publication) : Prop :=
  ∀ nowMs, p.clock.publishedMs ≤ nowMs → nowMs ≤ p.clock.publishedMs + 2000 →
    (CommandParser.parse {} parseJson (encodeUtf8 (dumps p.payload))
      nowMs).status = .ok

/-- The sequence number of the payload fits a JSON integer. -/
def Publication.Sequenced (p : Publication) : Prop :=
  ∃ n, p.payload.lookup "sequence_number" = some (.int n) ∧
    (PyValue.int n).Storable

/-- No time has passed between the two readings of the clock, as the node computes
it, and the first is no further ahead than the node allows. -/
def Reading.Prompt (clock : Reading) : Prop :=
  (PyValue.int clock.builtMs).Storable ∧
    wrap64 (clock.publishedMs - wrap64 clock.builtMs) ≤ 0 ∧
      -1000 ≤ wrap64 (clock.publishedMs - wrap64 clock.builtMs)

theorem toJson_int {n : ℤ} (hn : (PyValue.int n).Storable) :
    (PyValue.int n).toJson = .integer ⟨n, hn⟩ := dif_pos hn

/-- A timestamp is timely for the whole budget exactly if none of it has been
used up at the publication. -/
theorem timely_iff_prompt (publishedMs : ℤ) {t : ℤ} (ht : (PyValue.int t).Storable) :
    (∀ nowMs, publishedMs ≤ nowMs → nowMs ≤ publishedMs + 2000 →
      CommandParser.Timely {} nowMs ⟨t, ht⟩) ↔
        wrap64 (publishedMs - wrap64 t) ≤ 0 ∧
          -1000 ≤ wrap64 (publishedMs - wrap64 t) := by
  simp only [CommandParser.Timely, JsonInteger.getInt64]
  generalize wrap64 t = stamp
  constructor
  · intro hall
    have hfirst := hall publishedMs le_rfl (by omega)
    have hlast := hall (publishedMs + 2000) (by omega) le_rfl
    simp only [wrap64, Int.bmod_def] at hfirst hlast ⊢
    norm_num at hfirst hlast ⊢
    split_ifs at hfirst hlast ⊢ <;> omega
  · rintro ⟨hage, hlead⟩ nowMs hlow hhigh
    simp only [wrap64, Int.bmod_def] at hage hlead ⊢
    norm_num at hage hlead ⊢
    split_ifs at hage hlead ⊢ <;> omega

/-- When the clock does not go back between the two readings, they are prompt if
they fall into the same millisecond, and only then. -/
theorem Reading.prompt_iff_of_le {clock : Reading} (hlow : 0 ≤ clock.builtMs)
    (hle : clock.builtMs ≤ clock.publishedMs) (hhigh : clock.publishedMs < 2 ^ 63) :
    clock.Prompt ↔ clock.builtMs = clock.publishedMs := by
  simp only [Reading.Prompt, PyValue.Storable, wrap64, Int.bmod_def]
  norm_num at hhigh ⊢
  constructor
  · rintro ⟨_, hage, hlead⟩
    split_ifs at hage hlead <;> omega
  · intro hsame
    rw [← hsame] at hhigh ⊢
    split_ifs <;> omega

theorem phaseByAction_operational (action : Fin 2) :
    ∃ phase, (phaseByAction action, phase) ∈ operationalPhases := by
  fin_cases action
  · exact ⟨.greenNS, by decide⟩
  · exact ⟨.greenEW, by decide⟩

theorem length_phasePayload_le {action : Fin 2} {stampMs n : ℤ}
    (hstamp : (PyValue.int stampMs).Storable)
    (hn : (PyValue.int n).Storable) :
    (encodeUtf8 (dumps (phasePayload (phaseByAction action) stampMs
      n))).length ≤ 8192 := by
  have hbytes := length_encodeUtf8_le
    (dumps (phasePayload (phaseByAction action) stampMs n))
  have hstampText := length_dump_int_le hstamp.1 hstamp.2
  have hnText := length_dump_int_le hn.1 hn.2
  have hphase : (phaseByAction action).length = 8 := by
    fin_cases action <;> rfl
  have hphaseText := length_dumpString_le (phaseByAction action)
  have hliterals : (dumpString "action").length ≤ 74 ∧
      (dumpString "CHANGE_PHASE").length ≤ 146 ∧
      (dumpString "phase").length ≤ 62 ∧
      (dumpString "priority").length ≤ 98 ∧
      (dumpString "HIGH").length ≤ 50 ∧
      (dumpString "timestamp").length ≤ 110 ∧
      (dumpString "sequence_number").length ≤ 182 :=
    ⟨length_dumpString_le _, length_dumpString_le _, length_dumpString_le _,
      length_dumpString_le _, length_dumpString_le _, length_dumpString_le _,
      length_dumpString_le _⟩
  have htext : (dumps (phasePayload (phaseByAction action) stampMs
      n)).length ≤ 2048 := by
    simp only [dumps, phasePayload, dumpMembers, String.length_append,
      PyValue.dump] at hstampText hnText ⊢
    have hseparators : String.length ": " = 2 ∧ String.length ", " = 2 ∧
        String.length "\x7b" = 1 ∧ String.length "\x7d" = 1 :=
      ⟨rfl, rfl, rfl, rfl⟩
    omega
  omega

variable {parseJson : List UInt8 → Option Json}

theorem Publication.Typical.understood {p : Publication}
    (htypical : p.Typical) (horigin : p.origin = .phaseCommand)
    (hsequenced : p.Sequenced) (hprompt : p.clock.Prompt)
    (hread : ReadsBack parseJson p.payload) : p.Understood parseJson := by
  unfold Publication.Typical at htypical
  rw [horigin] at htypical
  obtain ⟨action, n, hpayload⟩ := htypical
  obtain ⟨m, hm, hn⟩ := hsequenced
  obtain rfl : n = m := by
    rw [hpayload] at hm
    simpa [phasePayload, List.lookup_cons] using hm
  obtain ⟨hstamp, hage⟩ := hprompt
  have htimely := (timely_iff_prompt p.clock.publishedMs hstamp).mpr hage
  rw [hpayload] at hread
  intro nowMs hlow hhigh
  rw [CommandParser.parse_status_ok_iff, hpayload]
  rcases hread with ⟨_, entry, hentry, hnot⟩ | ⟨members, hjson, hlookup⟩
  · refine absurd ?_ hnot
    simp only [phasePayload, List.mem_cons, List.not_mem_nil, or_false] at hentry
    rcases hentry with rfl | rfl | rfl | rfl | rfl
    · trivial
    · trivial
    · trivial
    · exact hstamp
    · exact hn
  · obtain ⟨phase, hphase⟩ := phaseByAction_operational action
    refine ⟨phase, encodeUtf8_dumps_ne_nil _,
      length_phasePayload_le hstamp hn, members, hjson, ?_⟩
    constructor
    · rw [hlookup]
      rfl
    · refine ⟨phaseByAction action, ?_, hphase⟩
      rw [hlookup]
      rfl
    · refine ⟨⟨n, hn⟩, ?_⟩
      rw [hlookup, ← toJson_int hn]
      rfl
    · refine ⟨⟨p.clock.builtMs, hstamp⟩, ?_, htimely nowMs hlow hhigh⟩
      rw [hlookup, ← toJson_int hstamp]
      rfl

theorem Publication.Understood.commands {p : Publication}
    (hunderstood : p.Understood parseJson)
    (hread : ReadsBack parseJson p.payload) :
    (p.payload.lookup "action").map PyValue.toJson =
        some (.string "CHANGE_PHASE") ∧
      (∃ n, (p.payload.lookup "sequence_number").map PyValue.toJson =
        some (.integer n)) ∧
      ∃ t, (p.payload.lookup "timestamp").map PyValue.toJson =
          some (.integer t) ∧
        ∀ nowMs, p.clock.publishedMs ≤ nowMs →
          nowMs ≤ p.clock.publishedMs + 2000 →
          CommandParser.Timely {} nowMs t := by
  have hcommands : ∀ nowMs, p.clock.publishedMs ≤ nowMs →
      nowMs ≤ p.clock.publishedMs + 2000 → ∃ members phase,
        parseJson (encodeUtf8 (dumps p.payload)) = some (.object members) ∧
          CommandParser.Commands (CommandParser.Timely {} nowMs) members
            phase := by
    intro nowMs hlow hhigh
    obtain ⟨phase, haccepts⟩ :=
      (CommandParser.parse_status_ok_iff parseJson _).mp (hunderstood nowMs hlow hhigh)
    obtain ⟨members, hjson, hmembers⟩ := haccepts.members
    exact ⟨members, phase, hjson, hmembers⟩
  obtain ⟨members, phase, hjson, hfirst⟩ :=
    hcommands p.clock.publishedMs le_rfl (by omega)
  rcases hread with ⟨hnone, _⟩ | ⟨members', hjson', hlookup⟩
  · rw [hnone] at hjson
    contradiction
  · rw [hjson, Option.some.injEq, Json.object.injEq] at hjson'
    subst hjson'
    obtain ⟨t, ht, _⟩ := hfirst.timestamp
    rw [← hlookup, ← hlookup, ← hlookup]
    refine ⟨hfirst.action, hfirst.sequence, t, ht, ?_⟩
    intro nowMs hlow hhigh
    obtain ⟨members', phase', hjson'', hlater⟩ := hcommands nowMs hlow hhigh
    rw [hjson, Option.some.injEq, Json.object.injEq] at hjson''
    subst hjson''
    obtain ⟨t', ht', htimely⟩ := hlater.timestamp
    rw [ht, Option.some.injEq, Json.integer.injEq] at ht'
    exact ht' ▸ htimely

/-- What JSON reads as an integer is one that fits. -/
theorem storable_of_toJson {m : ℤ} {n : JsonInteger}
    (h : (PyValue.int m).toJson = .integer n) :
    ∃ hm : (PyValue.int m).Storable, n = ⟨m, hm⟩ := by
  by_cases hm : (PyValue.int m).Storable
  · rw [toJson_int hm, Json.integer.injEq] at h
    exact ⟨hm, h.symm⟩
  · have hfloat : (PyValue.int m).toJson = .float := dif_neg hm
    rw [hfloat] at h
    cases h

/-- Of everything that the coordinator publishes on the command channel, the
nodes accept the phase commands that are published as soon as they are built, and
nothing else. -/
theorem understood_iff_prompt_phase_command (roads : RoadNetwork)
    (upper : String → String) (c : Coordinator)
    (events : List CoordinatorEvent) (p : Publication)
    (hp : p ∈ c.publications roads upper events)
    (hread : ReadsBack parseJson p.payload) :
    p.Understood parseJson ↔
      p.origin = .phaseCommand ∧ p.Sequenced ∧ p.clock.Prompt := by
  have htypical := Coordinator.publications_typical roads upper c events p hp
  constructor
  · intro hunderstood
    obtain ⟨haction, ⟨n, hn⟩, t, ht, htimely⟩ := hunderstood.commands hread
    unfold Publication.Typical at htypical
    cases horigin : p.origin with
    | phaseCommand =>
        rw [horigin] at htypical
        obtain ⟨action, m, hpayload⟩ := htypical
        have hm : p.payload.lookup "sequence_number" = some (.int m) := by
          rw [hpayload]
          rfl
        have hstamp : p.payload.lookup "timestamp" =
            some (.int p.clock.builtMs) := by
          rw [hpayload]
          rfl
        rw [hm, Option.map_some, Option.some.injEq] at hn
        rw [hstamp, Option.map_some, Option.some.injEq] at ht
        obtain ⟨hmfits, _⟩ := storable_of_toJson hn
        obtain ⟨hfits, rfl⟩ := storable_of_toJson ht
        exact ⟨rfl, ⟨m, hm, hmfits⟩, hfits,
          (timely_iff_prompt p.clock.publishedMs hfits).mp htimely⟩
    | override =>
        rw [horigin] at htypical
        rw [htypical] at haction
        simp [PyValue.toJson] at haction
    | recovery =>
        rw [horigin] at htypical
        rw [htypical] at haction
        simp [PyValue.toJson] at haction
  · rintro ⟨horigin, hsequenced, hprompt⟩
    exact htypical.understood horigin hsequenced hprompt hread

/-- A decoder that knows one document. -/
def decoderFor (d : PyDict) (raw : List UInt8) : Option Json :=
  if raw = encodeUtf8 (dumps d) then
    some (.object (d.map fun m => (m.1, m.2.toJson)))
  else none

theorem decoderFor_readsBack (d : PyDict) : ReadsBack (decoderFor d) d := by
  refine Or.inr ⟨_, if_pos rfl, ?_⟩
  intro key
  induction d with
  | nil => rfl
  | cons m d ih =>
      obtain ⟨k, v⟩ := m
      rw [List.map_cons, List.lookup_cons, List.lookup_cons]
      cases key == k
      · exact ih
      · rfl

/-- A coordinator that answers one telemetry message, and publishes the answer a
fifth of a millisecond after it has been built. -/
def answeringRun : List CoordinatorEvent :=
  [.telemetry "edge-001" 0 ⟨1760000000, 1760000000 + 1 / 5000⟩]

def answered : Publication where
  origin := .phaseCommand
  node := "edge-001"
  payload := phasePayload "GREEN_NS" 1760000000000 1759999000000
  clock := ⟨1760000000, 1760000000 + 1 / 5000⟩

theorem understood_iff_prompt_phase_command_answered :
    answered.Understood (decoderFor answered.payload) ↔
      answered.origin = .phaseCommand ∧ answered.Sequenced ∧ answered.clock.Prompt :=
  understood_iff_prompt_phase_command (fun _ _ => none) id
    { sequence := 1759999000000 } answeringRun answered (by decide +kernel)
    (decoderFor_readsBack _)

/-- An ambulance on a route of one intersection. -/
def ambulanceRun : List CoordinatorEvent :=
  [.emergency "em-001" ["int-001"] "north"
    (fun _ => ⟨1760000000, 1760000000⟩)]

def ambulanceOverride : Publication where
  origin := .override
  node := "int-001"
  payload := Coordinator.overrideCommand String.toUpper "em-001" "north"
    1760000000 0
  clock := ⟨1760000000, 1760000000⟩

theorem understood_broken_by_override :
    ¬ ∀ (parseJson : List UInt8 → Option Json) (roads : RoadNetwork)
      (c : Coordinator) (events : List CoordinatorEvent) (p : Publication),
      p ∈ c.publications roads String.toUpper events →
        ReadsBack parseJson p.payload → p.Understood parseJson := by
  intro hall
  have hunderstood := hall (decoderFor ambulanceOverride.payload)
    (fun _ _ => none) { sequence := 1 } ambulanceRun ambulanceOverride
    (by decide +kernel) (decoderFor_readsBack _)
  obtain ⟨haction, _⟩ := hunderstood.commands (decoderFor_readsBack _)
  have hlookup : ambulanceOverride.payload.lookup "action" =
      some (.str "override") := rfl
  rw [hlookup] at haction
  simp [PyValue.toJson] at haction

end Semaforo
