import Semaforo.CoordinatorCommands
import Semaforo.PyJson
import Mathlib.Tactic

/-!
# Emergency preemption

`EmergencyHandler` of `network/coordinator/src/emergency.py`: the messages that
announce an emergency, whatever their payload, and `clear_emergency`.  The
state is the dictionary of the active emergencies and the history of what has
been published.  The topology answers through the graph manager, whose queries
may raise.
-/

namespace Semaforo

/-- A dictionary key made of a JSON value: numbers and booleans that compare
equal are one key. -/
inductive PyKey where
  | null
  | number (value : FloatValue ℚ)
  | str (value : String)
  deriving DecidableEq, Repr

/-- `hash(x)` does not raise, and the key. -/
def PyJson.toKey : PyJson → Except PyError PyKey
  | .null => .ok .null
  | .bool b => .ok (.number (.fin (if b then 1 else 0)))
  | .int i => .ok (.number (.fin i))
  | .float x => .ok (.number x)
  | .str s => .ok (.str s)
  | x => .error (.typeError ("unhashable type: '" ++ x.typeName ++ "'"))

/-- What surrounds the handler: the graph manager, the formatting of values in
f-strings, `str.upper`, and the check that the client makes of a topic. -/
structure EmergencyEnvironment where
  shortestPath : PyJson → PyJson → Except PyError (List PyJson)
  edgeDistance : String → String → Except PyError (FloatValue ℚ)
  edgeSpeedLimit : String → String → Except PyError (FloatValue ℚ)
  format : PyJson → String
  upper : String → String
  rejects : String → Option PyError

/-- What an announcement says, once it has passed all checks. -/
structure Route where
  key : PyKey
  emergencyId : PyJson
  path : List String
  direction : PyJson

inductive EmergencyEvent where
  /-- `none` is a payload that is not JSON text. -/
  | message (payload : Option PyJson) (clock : ℕ → Reading)
  | clear (emergencyId : PyKey) (formatted : String) (clock : ℕ → Reading)

structure EmergencyHandler where
  /-- `_active_emergencies`. -/
  active : PyKey → Option (List String)
  published : List Publication

namespace EmergencyHandler

variable (env : EmergencyEnvironment)

def initial : EmergencyHandler := ⟨fun _ => none, []⟩

/-! ## Announcements -/

/-- `" -> ".join(path)` asks for strings. -/
def pathNames : List PyJson → Except PyError (List String)
  | [] => .ok []
  | .str s :: path => do return s :: (← pathNames path)
  | x :: _ => .error (.typeError
      ("sequence item: expected str instance, " ++ x.typeName ++ " found"))

/-- What `_on_emergency` and `_process_emergency` do before they write: the
route, `none` if they return, or the exception. -/
def announce (payload : Option PyJson) (clock : ℕ → Reading) :
    Except PyError (Option Route) := do
  match payload with
  | none => return none
  | some data =>
      let now := toString (pyInt (clock 0).built)
      let emergencyId ← data.get "emergency_id" (.str ("em-" ++ now))
      let origin ← data.get "origin_intersection" .null
      let destination ← data.get "destination_intersection" .null
      let direction ← data.get "direction" (.str "north")
      if !origin.truthy || !destination.truthy then return none
      let path ← env.shortestPath origin destination
      if path.isEmpty then return none
      let path ← pathNames path
      let key ← emergencyId.toKey
      return some ⟨key, emergencyId, path, direction⟩

def travelTime : Option String → String → Except PyError (FloatValue ℚ)
  | none, _ => .ok (.fin 0)
  | some previous, node => do
      let distance ← env.edgeDistance previous node
      let speedLimit ← env.edgeSpeedLimit previous node
      let speedMs := divide speedLimit (.fin (36 / 10))
      return if .fin 0 < speedMs then divide distance speedMs else .fin 0
where
  /-- The quotient by a positive number. -/
  divide : FloatValue ℚ → FloatValue ℚ → FloatValue ℚ
    | .fin x, .fin y => .fin (x / y)
    | .fin _, .posInf => .fin 0
    | .nan, _ => .nan
    | _, .nan => .nan
    | _, .posInf => .nan
    | x, _ => x

def override (emergencyId direction : PyJson) (clock : Reading)
    (cumulativeDelay : FloatValue ℚ) (node : String) :
    Except PyError Publication := do
  let delay ← match cumulativeDelay with
    | .fin delay => .ok delay
    | .nan => .error (.valueError "cannot convert float NaN to integer")
    | _ => .error (.overflowError "cannot convert float infinity to integer")
  let direction ← match direction with
    | .str s => .ok s
    | x => .error (x.noAttribute "upper")
  match env.rejects node with
  | some e => .error e
  | none => return {
      origin := .override
      node := node
      payload := Coordinator.overrideCommand env.upper
        (env.format emergencyId) direction clock.built delay
      clock := clock }

/-- The loop of `_clear_path` from its `i`-th round on: what it has published
when it ends or raises. -/
def clearPath (emergencyId direction : PyJson) (clock : ℕ → Reading) :
    ℕ → Option String → FloatValue ℚ → List String →
      List Publication × Option PyError
  | _, _, _, [] => ([], none)
  | i, previous, cumulativeDelay, node :: path =>
      match travelTime env previous node with
      | .error e => ([], some e)
      | .ok time =>
          let cumulativeDelay := cumulativeDelay + time
          match override env emergencyId direction (clock i) cumulativeDelay
            node with
          | .error e => ([], some e)
          | .ok command =>
              let (later, e) := clearPath emergencyId direction clock (i + 1)
                (some node) cumulativeDelay path
              (command :: later, e)

/-- `_on_emergency`, which catches every exception. -/
def onEmergency (s : EmergencyHandler) (payload : Option PyJson)
    (clock : ℕ → Reading) : EmergencyHandler :=
  match announce env payload clock with
  | .ok (some route) =>
      { active := Function.update s.active route.key (some route.path)
        published := s.published ++
          (clearPath env route.emergencyId route.direction
            (fun i => clock (i + 1)) 0 none (.fin 0) route.path).1 }
  | _ => s

/-! ## Recovery -/

/-- The loop of `clear_emergency` from its `i`-th round on. -/
def restorePath (formatted : String) (clock : ℕ → Reading) :
    ℕ → List String → List Publication × Option PyError
  | _, [] => ([], none)
  | i, node :: path =>
      match env.rejects node with
      | some e => ([], some e)
      | none =>
          let (later, e) := restorePath formatted clock (i + 1) path
          ({ origin := .recovery
             node := node
             payload := Coordinator.recoveryCommand formatted (clock i).built
             clock := clock i } :: later, e)

/-- The state after `clear_emergency`, also if it raises. -/
def clearEmergency (s : EmergencyHandler) (key : PyKey) (formatted : String)
    (clock : ℕ → Reading) : EmergencyHandler :=
  match s.active key with
  | none => s
  | some path =>
      { active := Function.update s.active key none
        published :=
          s.published ++ (restorePath env formatted clock 0 path).1 }

def step (s : EmergencyHandler) : EmergencyEvent → EmergencyHandler
  | .message payload clock => onEmergency env s payload clock
  | .clear key formatted clock => clearEmergency env s key formatted clock

def run (events : List EmergencyEvent) : EmergencyHandler :=
  events.foldl (step env) initial

/-! ## Bookkeeping -/

def lastCommand (published : List Publication) (node : String) :
    Option Publication :=
  published.reverse.find? fun p => p.node = node

def Overridden (published : List Publication) (node : String) : Prop :=
  ∃ p, lastCommand published node = some p ∧ p.origin = .override

/-- An active emergency other than `besides` has the node on its path. -/
def Needed (s : EmergencyHandler) (besides : Option PyKey) (node : String) :
    Prop :=
  ∃ key path, some key ≠ besides ∧ s.active key = some path ∧ node ∈ path

/-- The overridden intersections are those on the paths of the active
emergencies. -/
def Consistent (s : EmergencyHandler) : Prop :=
  ∀ node, Overridden s.published node ↔ s.Needed none node

/-! ## Which commands go out -/

/-- The command for the node can be built and sent. -/
def commandable (direction : PyJson) (previous : Option String)
    (node : String) : Bool :=
  match direction, travelTime env previous node, env.rejects node with
  | .str _, .ok (.fin _), none => true
  | _, _, _ => false

/-- The part of a path before the first node whose command cannot be built and
sent. -/
def commanded (direction : PyJson) : Option String → List String → List String
  | _, [] => []
  | previous, node :: path =>
      if commandable env direction previous node then
        node :: commanded direction (some node) path
      else []

/-- The part of a path before the first node whose topic is rejected. -/
def restored (path : List String) : List String :=
  path.takeWhile fun node => (env.rejects node).isNone

variable {env}

theorem override_spec {previous : Option String} {node : String}
    {time : FloatValue ℚ} (htime : travelTime env previous node = .ok time)
    (emergencyId direction : PyJson) (clock : Reading) (delay : ℚ) :
    (∃ command delay', commandable env direction previous node = true ∧
        (FloatValue.fin delay + time : FloatValue ℚ) = .fin delay' ∧
        override env emergencyId direction clock (.fin delay + time) node =
          .ok command ∧
        command.node = node ∧ command.origin = .override) ∨
      commandable env direction previous node = false ∧
        ∃ e, override env emergencyId direction clock (.fin delay + time) node =
          .error e := by
  cases time with
  | fin time =>
      cases direction with
      | str d =>
          cases hrejects : env.rejects node with
          | none =>
              have hcan : commandable env (.str d) previous node = true := by
                simp [commandable, htime, hrejects]
              refine Or.inl ⟨{
                origin := .override
                node := node
                payload := Coordinator.overrideCommand env.upper
                  (env.format emergencyId) d clock.built (delay + time)
                clock := clock },
                delay + time, hcan, rfl, ?_, rfl, rfl⟩
              simp only [override, hrejects, FloatValue.fin_add_fin]
              rfl
          | some e =>
              refine Or.inr ⟨by simp [commandable, hrejects], e, ?_⟩
              simp only [override, hrejects, FloatValue.fin_add_fin]
              rfl
      | _ => exact Or.inr ⟨rfl, _, rfl⟩
  | _ => exact Or.inr ⟨by cases direction <;> simp [commandable, htime], _, rfl⟩

variable (env) in
theorem clearPath_spec (emergencyId direction : PyJson) (clock : ℕ → Reading) (i : ℕ)
    (previous : Option String) (delay : ℚ) (path : List String) :
    (clearPath env emergencyId direction clock i previous (.fin delay)
        path).1.map Publication.node = commanded env direction previous path ∧
      ∀ p ∈ (clearPath env emergencyId direction clock i previous (.fin delay)
        path).1, p.origin = .override := by
  induction path generalizing i previous delay with
  | nil => exact ⟨rfl, fun _ hp => absurd hp List.not_mem_nil⟩
  | cons node path ih =>
      unfold clearPath commanded
      cases htime : travelTime env previous node with
      | error e =>
          have hnot : commandable env direction previous node = false := by
            cases direction <;> simp [commandable, htime]
          simp [hnot]
      | ok time =>
          rcases override_spec htime emergencyId direction (clock i)
              delay with
            ⟨command, delay', hcan, hdelay, hcommand, hnode, horigin⟩ |
            ⟨hcannot, e, hcommand⟩
          · have hrest := ih (i + 1) (some node) delay'
            rw [hdelay] at hcommand
            simp only [hdelay, hcommand, hcan, if_true, List.map_cons, hnode,
              hrest.1, List.forall_mem_cons, horigin, true_and]
            exact hrest.2
          · simp [hcommand, hcannot]

theorem override_payload {emergencyId direction : PyJson} {clock : Reading}
    {cumulativeDelay : FloatValue ℚ} {node : String} {command : Publication}
    (h : override env emergencyId direction clock cumulativeDelay node = .ok command) :
    ∃ formatted named delay, command.payload =
      Coordinator.overrideCommand env.upper formatted named clock.built delay := by
  unfold override at h
  cases cumulativeDelay with
  | fin delay =>
      cases direction with
      | str d =>
          cases hrejects : env.rejects node with
          | none =>
              rw [hrejects] at h
              cases h
              exact ⟨_, d, delay, rfl⟩
          | some e =>
              rw [hrejects] at h
              cases h
      | _ => cases h
  | _ => cases h

theorem clearPath_payload {emergencyId direction : PyJson} {clock : ℕ → Reading}
    {i : ℕ} {previous : Option String} {cumulativeDelay : FloatValue ℚ}
    {path : List String} {p : Publication}
    (hp : p ∈ (clearPath env emergencyId direction clock i previous
      cumulativeDelay path).1) :
    ∃ formatted named stamp delay, p.payload =
      Coordinator.overrideCommand env.upper formatted named stamp delay := by
  induction path generalizing i previous cumulativeDelay with
  | nil => cases hp
  | cons node path ih =>
      unfold clearPath at hp
      cases htime : travelTime env previous node with
      | error e =>
          rw [htime] at hp
          cases hp
      | ok time =>
          rw [htime] at hp
          dsimp only at hp
          cases hcommand : override env emergencyId direction (clock i)
              (cumulativeDelay + time) node with
          | error e =>
              rw [hcommand] at hp
              cases hp
          | ok command =>
              rw [hcommand] at hp
              rcases List.mem_cons.mp hp with rfl | hlater
              · obtain ⟨formatted, named, delay, hpayload⟩ :=
                  override_payload hcommand
                exact ⟨formatted, named, _, delay, hpayload⟩
              · exact ih hlater

variable (env) in
theorem restorePath_spec (formatted : String) (clock : ℕ → Reading) (i : ℕ)
    (path : List String) :
    (restorePath env formatted clock i path).1.map Publication.node =
        restored env path ∧
      ∀ p ∈ (restorePath env formatted clock i path).1,
        p.origin = .recovery := by
  induction path generalizing i with
  | nil => exact ⟨rfl, fun _ hp => absurd hp List.not_mem_nil⟩
  | cons node path ih =>
      unfold restorePath restored
      cases hrejects : env.rejects node with
      | some e => simp [hrejects]
      | none =>
          have hrest := ih (i + 1)
          simp only [List.takeWhile_cons, hrejects, Option.isNone_none, if_true,
            List.map_cons, List.forall_mem_cons, true_and]
          exact ⟨congrArg _ hrest.1, hrest.2⟩

/-! ## The last commands -/

theorem lastCommand_append (published now : List Publication) (node : String) :
    lastCommand (published ++ now) node =
      (lastCommand now node).or (lastCommand published node) := by
  rw [lastCommand, List.reverse_append, List.find?_append]
  rfl

theorem lastCommand_eq_none_iff {now : List Publication} {node : String} :
    lastCommand now node = none ↔ node ∉ now.map Publication.node := by
  simp [lastCommand, List.find?_eq_none]

theorem mem_of_lastCommand {now : List Publication} {node : String}
    {p : Publication} (h : lastCommand now node = some p) :
    p ∈ now ∧ p.node = node :=
  ⟨List.mem_reverse.mp (List.mem_of_find?_eq_some h),
    by simpa using List.find?_some h⟩

/-- Commands of one kind decide for the nodes that they go to, and leave the
others as they are. -/
theorem overridden_append {published now : List Publication} {origin : Origin}
    (hnow : ∀ p ∈ now, p.origin = origin) (node : String) :
    Overridden (published ++ now) node ↔
      if node ∈ now.map Publication.node then origin = .override
      else Overridden published node := by
  unfold Overridden
  rw [lastCommand_append]
  cases hlast : lastCommand now node with
  | none =>
      rw [if_neg (lastCommand_eq_none_iff.mp hlast), Option.none_or]
  | some p =>
      obtain ⟨hp, hnode⟩ := mem_of_lastCommand hlast
      have hmem : node ∈ now.map Publication.node :=
        List.mem_map.mpr ⟨p, hp, hnode⟩
      rw [if_pos hmem, ← hnow p hp]
      simp

/-! ## One step -/

theorem needed_none_iff (s : EmergencyHandler) (key : PyKey) (node : String) :
    s.Needed none node ↔
      (∃ path, s.active key = some path ∧ node ∈ path) ∨
        s.Needed (some key) node := by
  constructor
  · rintro ⟨k, path, -, hactive, hnode⟩
    by_cases hk : k = key
    · exact Or.inl ⟨path, hk ▸ hactive, hnode⟩
    · exact Or.inr ⟨k, path, fun h => hk (Option.some.inj h), hactive, hnode⟩
  · rintro (⟨path, hactive, hnode⟩ | ⟨k, path, -, hactive, hnode⟩)
    · exact ⟨key, path, nofun, hactive, hnode⟩
    · exact ⟨k, path, nofun, hactive, hnode⟩

/-- Writing one entry changes nothing for the other emergencies. -/
theorem needed_update (s : EmergencyHandler) (key : PyKey)
    (entry : Option (List String)) (published : List Publication)
    (node : String) :
    Needed ⟨Function.update s.active key entry, published⟩ none node ↔
      (∃ path, entry = some path ∧ node ∈ path) ∨ s.Needed (some key) node := by
  rw [needed_none_iff _ key]
  have hother : Needed ⟨Function.update s.active key entry, published⟩
      (some key) node ↔ s.Needed (some key) node := by
    unfold Needed
    refine exists_congr fun k => exists_congr fun path => ?_
    refine and_congr_right fun hk => ?_
    have hne : k ≠ key := fun h => hk (congrArg some h)
    change Function.update s.active key entry k = some path ∧ _ ↔ _
    rw [Function.update_of_ne hne]
  rw [hother]
  change (∃ path, Function.update s.active key entry key = some path ∧ _) ∨ _ ↔ _
  rw [Function.update_self]

variable (env) in
/-- A step that keeps the books: every intersection of an announced route gets
its command or is overridden already; a route that replaces another one leaves
none of its intersections behind; and clearing restores exactly those that no
other emergency needs. -/
def Sound (s : EmergencyHandler) : EmergencyEvent → Prop
  | .message payload clock =>
      ∀ route, announce env payload clock = .ok (some route) →
        (∀ node ∈ route.path,
          node ∈ commanded env route.direction none route.path ∨
            s.Needed none node) ∧
        ∀ old, s.active route.key = some old → ∀ node ∈ old,
          node ∈ route.path ∨ s.Needed (some route.key) node
  | .clear key _ _ =>
      ∀ path, s.active key = some path → ∀ node ∈ path,
        (node ∈ restored env path ↔ ¬ s.Needed (some key) node)

variable (env) in
theorem commanded_subset (direction : PyJson) (previous : Option String)
    (path : List String) : commanded env direction previous path ⊆ path := by
  induction path generalizing previous with
  | nil => exact List.Subset.refl _
  | cons node path ih =>
      unfold commanded
      split_ifs
      · exact List.cons_subset_cons node (ih (some node))
      · exact List.nil_subset _

theorem consistent_announced_iff {s : EmergencyHandler} (h : s.Consistent)
    (route : Route) (clock : ℕ → Reading) :
    Consistent ⟨Function.update s.active route.key (some route.path),
        s.published ++ (clearPath env route.emergencyId route.direction clock 0
          none (.fin 0) route.path).1⟩ ↔
      (∀ node ∈ route.path,
          node ∈ commanded env route.direction none route.path ∨
            s.Needed none node) ∧
        ∀ old, s.active route.key = some old → ∀ node ∈ old,
          node ∈ route.path ∨ s.Needed (some route.key) node := by
  obtain ⟨hnodes, horigin⟩ := clearPath_spec env route.emergencyId
    route.direction clock 0 none 0 route.path
  have hsubset := commanded_subset env route.direction none route.path
  have hnode : ∀ node,
      (Overridden (s.published ++ (clearPath env route.emergencyId
          route.direction clock 0 none (.fin 0) route.path).1) node ↔
        node ∈ commanded env route.direction none route.path ∨
          s.Needed none node) := by
    intro node
    rw [overridden_append horigin, hnodes, ← h node]
    split_ifs with hmem <;> simp [hmem]
  unfold Consistent
  simp only [hnode, needed_update, Option.some.injEq, exists_eq_left']
  constructor
  · intro hall
    refine ⟨fun node hpath => (hall node).mpr (Or.inl hpath), ?_⟩
    intro old hold node hmem
    apply (hall node).mp
    exact Or.inr ((needed_none_iff s route.key node).mpr
      (Or.inl ⟨old, hold, hmem⟩))
  · rintro ⟨hcommanded, hold⟩ node
    constructor
    · rintro (hmem | hneeded)
      · exact Or.inl (hsubset hmem)
      · rcases (needed_none_iff s route.key node).mp hneeded with
          ⟨old, hactive, hmem⟩ | hother
        · exact hold old hactive node hmem
        · exact Or.inr hother
    · rintro (hpath | hother)
      · exact hcommanded node hpath
      · exact Or.inr ((needed_none_iff s route.key node).mpr (Or.inr hother))

theorem consistent_cleared_iff {s : EmergencyHandler} (h : s.Consistent)
    {key : PyKey} {path : List String} (hactive : s.active key = some path)
    (formatted : String) (clock : ℕ → Reading) :
    Consistent ⟨Function.update s.active key none,
        s.published ++ (restorePath env formatted clock 0 path).1⟩ ↔
      ∀ node ∈ path,
        (node ∈ restored env path ↔ ¬ s.Needed (some key) node) := by
  obtain ⟨hnodes, horigin⟩ := restorePath_spec env formatted clock 0 path
  have hsubset : restored env path ⊆ path := (List.takeWhile_sublist _).subset
  have hnode : ∀ node,
      (Overridden (s.published ++ (restorePath env formatted clock 0 path).1)
          node ↔
        node ∉ restored env path ∧ s.Needed none node) := by
    intro node
    rw [overridden_append horigin, hnodes, ← h node]
    split_ifs with hmem <;> simp [hmem]
  unfold Consistent
  simp only [hnode, needed_update, needed_none_iff s key, hactive,
    Option.some.injEq, exists_eq_left', reduceCtorEq, false_and, exists_false,
    false_or]
  constructor
  · intro hall node hpath
    have hthis := hall node
    tauto
  · intro hall node
    by_cases hpath : node ∈ path
    · have hthis := hall node hpath
      tauto
    · have hnot : node ∉ restored env path := fun hmem => hpath (hsubset hmem)
      tauto

/-- From consistent books a step leads to consistent books exactly if it is
sound. -/
theorem consistent_step_iff {s : EmergencyHandler} (h : s.Consistent)
    (event : EmergencyEvent) :
    (step env s event).Consistent ↔ Sound env s event := by
  cases event with
  | message payload clock =>
      simp only [step, onEmergency, Sound]
      cases hroute : announce env payload clock with
      | error e => simpa using h
      | ok announced =>
          cases announced with
          | none => simpa using h
          | some route =>
              simp only [Except.ok.injEq, Option.some.injEq, forall_eq']
              exact consistent_announced_iff h route _
  | clear key formatted clock =>
      simp only [step, clearEmergency, Sound]
      cases hactive : s.active key with
      | none => simpa using h
      | some path =>
          simp only [Option.some.injEq, forall_eq']
          exact consistent_cleared_iff h hactive formatted clock

/-! ## Runs -/

theorem consistent_initial : initial.Consistent := by
  intro node
  constructor
  · rintro ⟨p, hlast, -⟩
    cases hlast
  · rintro ⟨key, path, -, hactive, -⟩
    cases hactive

/-- The books are right after every step of a run exactly if every step is
sound. -/
theorem run_consistent_iff (events : List EmergencyEvent) :
    (∀ before later, events = before ++ later →
        (run env before).Consistent) ↔
      ∀ before event later, events = before ++ event :: later →
        Sound env (run env before) event := by
  have hrun : ∀ before event, run env (before ++ [event]) =
      step env (run env before) event := fun before event =>
    List.foldl_append ..
  constructor
  · intro hall before event later hevents
    rw [← consistent_step_iff (hall before (event :: later) hevents), ← hrun]
    apply hall (before ++ [event]) later
    rw [hevents, List.append_assoc, List.singleton_append]
  · intro hsound before
    induction before using List.reverseRecOn with
    | nil => exact fun _ _ => consistent_initial
    | append_singleton before event ih =>
        intro later hevents
        rw [List.append_assoc, List.singleton_append] at hevents
        rw [hrun, consistent_step_iff (ih (event :: later) hevents)]
        exact hsound before event later hevents

def crossingRoutes : EmergencyEnvironment where
  shortestPath
    | .str "A", .str "C" => .ok [.str "A", .str "B", .str "C"]
    | .str "D", .str "B" => .ok [.str "D", .str "B"]
    | _, _ => .ok []
  edgeDistance _ _ := .ok (.fin 100)
  edgeSpeedLimit _ _ := .ok (.fin 50)
  format
    | .str s => s
    | x => x.typeName
  upper := String.toUpper
  rejects _ := none

/-- Two emergencies are announced, and the first one is cleared. -/
def crossingEvents : List EmergencyEvent :=
  [.message (some (.dict [("emergency_id", .str "em-1"),
      ("origin_intersection", .str "A"),
      ("destination_intersection", .str "C")])) fun _ => ⟨0, 0⟩,
    .message (some (.dict [("emergency_id", .str "em-2"),
      ("origin_intersection", .str "D"),
      ("destination_intersection", .str "B")])) fun _ => ⟨1, 1⟩,
    .clear (.str "em-1") "em-1" fun _ => ⟨2, 2⟩]

theorem crossing_restored_while_needed :
    (run crossingRoutes crossingEvents).active (.str "em-2") =
        some ["D", "B"] ∧
      (lastCommand (run crossingRoutes crossingEvents).published "B").map
        Publication.origin = some .recovery ∧
      ¬ ∀ before later, crossingEvents = before ++ later →
        (run crossingRoutes before).Consistent := by
  have hactive : (run crossingRoutes crossingEvents).active (.str "em-2") =
      some ["D", "B"] := by decide +kernel
  have hlast : (lastCommand (run crossingRoutes crossingEvents).published
      "B").map Publication.origin = some .recovery := by decide +kernel
  refine ⟨hactive, hlast, fun hall => ?_⟩
  have hneeded : (run crossingRoutes crossingEvents).Needed none "B" :=
    ⟨.str "em-2", ["D", "B"], nofun, hactive, by simp⟩
  obtain ⟨p, hp, horigin⟩ :=
    (hall crossingEvents [] (List.append_nil _).symm "B").mpr hneeded
  rw [hp, Option.map_some, horigin] at hlast
  cases hlast

end EmergencyHandler

end Semaforo
