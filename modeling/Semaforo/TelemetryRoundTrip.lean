import Mathlib.Tactic
import Semaforo.JsonEscape
import Semaforo.TelemetryEncoding

/-!
# What the coordinator reads of a telemetry

With an intersection id that needs no escapes, and with the other identifiers
within their quotation marks, the text is one object and says what was sent.  An
intersection id with a quotation mark, a backslash or a control character is
never read back: the text fails, or another id is read.
-/

namespace Semaforo

open CppStream JsonText

/-- Between quotation marks the identifier is a JSON string. -/
def Quotable (s : String) : Prop := ∃ v, Closed (quoted s) v

theorem quotable_of_plainText {s : String} (h : PlainText s) : Quotable s :=
  ⟨.str s, closed_string h⟩

theorem Quotable.closed {s : String} (h : Quotable s) :
    Closed (quoted s) (textValue (quoted s)) := by
  obtain ⟨v, hv⟩ := h
  rw [hv.textValue_eq]
  exact hv

theorem numeric_formatFloat {x : FloatValue ℚ} (h : x.IsFinite) :
    Numeric (formatFloat x).toList (textValue (formatFloat x).toList) := by
  cases x with
  | fin q =>
      obtain ⟨v, hv⟩ := exists_numeric_formatFinite q
      rw [formatFloat, String.toList_ofList, hv.textValue_eq]
      exact hv
  | _ => exact absurd h (by simp [FloatValue.IsFinite])

theorem plainText_phaseToString (p : Phase) : PlainText (phaseToString p) := by
  cases p <;> decide

theorem read_member {key : String} {text : List Char} {value : PyJson}
    (hkey : PlainText key) (h : Reads text value) : Member.Read ⟨key, text, value⟩ :=
  ⟨hkey, h⟩

theorem read_floatMember {key : String} (hkey : PlainText key) {x : FloatValue ℚ}
    (h : x.IsFinite) : (floatMember key x).Read :=
  read_member hkey (numeric_formatFloat h).reads

theorem read_intMember {key : String} (hkey : PlainText key) (i : ℤ) :
    (intMember key i).Read :=
  read_member hkey (numeric_int i).reads

theorem read_laneMembers {lane : LaneQueueState} (hid : Quotable lane.laneId)
    (hdensity : lane.density.IsFinite) (hwait : lane.avgWaitS.IsFinite) :
    ∀ m ∈ laneMembers lane, m.Read := by
  intro m hm
  simp only [laneMembers, List.mem_cons, List.not_mem_nil, or_false] at hm
  rcases hm with rfl | rfl | rfl | rfl
  · exact read_member (by decide) hid.closed.reads
  · exact read_intMember (by decide) _
  · exact read_floatMember (by decide) hdensity
  · exact read_floatMember (by decide) hwait

theorem reads_laneItem {lane : LaneQueueState} (hid : Quotable lane.laneId)
    (hdensity : lane.density.IsFinite) (hwait : lane.avgWaitS.IsFinite) :
    Reads (laneItem lane).1 (laneItem lane).2 ∧ Opens (laneItem lane).1 :=
  ⟨(closed_object _ _ (read_laneMembers hid hdensity hwait)).reads,
    '{', _, rfl, by decide, by decide⟩

theorem read_lanesMember {lanes : List LaneQueueState}
    (hid : ∀ lane ∈ lanes, Quotable lane.laneId)
    (hfinite : ∀ lane ∈ lanes, lane.density.IsFinite ∧ lane.avgWaitS.IsFinite) :
    (lanesMember lanes).Read := by
  refine read_member (by decide) (closed_array _ fun e he => ?_).reads
  obtain ⟨lane, hlane, rfl⟩ := List.mem_map.mp he
  exact reads_laneItem (hid lane hlane) (hfinite lane hlane).1 (hfinite lane hlane).2

variable {t : TelemetryPayload}

theorem read_members (hfinite : t.Finite)
    (hlanes : ∀ lane ∈ t.queueState.lanes, Quotable lane.laneId) :
    ∀ m ∈ phaseMember t :: stateMembers t, m.Read := by
  intro m hm
  simp only [stateMembers, List.mem_cons, List.not_mem_nil, or_false] at hm
  rcases hm with rfl | rfl | rfl | rfl | rfl | rfl | rfl
  · exact read_member (by decide) (closed_string (plainText_phaseToString _)).reads
  · exact read_intMember (by decide) _
  · exact read_floatMember (by decide) hfinite.maxDensity
  · exact read_floatMember (by decide) hfinite.maxWaitS
  · exact read_floatMember (by decide) hfinite.uptimeS
  · exact read_floatMember (by decide) hfinite.fps
  · exact read_lanesMember hlanes hfinite.lanes

def nodeMembers (t : TelemetryPayload) : PyObject :=
  [("node_id", textValue (quoted t.nodeId))]

theorem run_idsText (hnode : Quotable t.nodeId) :
    run ⟨[], .value⟩ (idsText t) =
      some ⟨[.object (nodeMembers t) "intersection_id"], .string false [] .plain⟩ := by
  have hopen : step ⟨[], .value⟩ '{' = some ⟨[.object [] ""], .firstKey⟩ := rfl
  have hread : (⟨"node_id", quoted t.nodeId, textValue (quoted t.nodeId)⟩ : Member).Read :=
    read_member (by decide) hnode.closed.reads
  have hcomma : idsText t = '{' :: ((memberText "node_id" (quoted t.nodeId) ++ [',']) ++
      '"' :: ("intersection_id".toList ++ ['"', ':', '"'])) := by
    rw [idsText, List.append_assoc]
    rfl
  rw [hcomma, run_cons hopen, List.append_assoc, run_firstKey, ← List.append_assoc,
    run_append, run_member hread [] "" [] (.inl rfl)]
  rfl

theorem key_ne_of_stateMembers (t : TelemetryPayload) :
    (∀ m ∈ phaseMember t :: stateMembers t, "intersection_id" ≠ m.key) ∧
      (∀ m ∈ stateMembers t, "phase" ≠ m.key) ∧
      ∀ m ∈ (stateMembers t).tail, "total_vehicles" ≠ m.key := by
  simp [phaseMember, stateMembers, intMember, floatMember, lanesMember]

theorem decodeTelemetry_dict (nodeId : String) (msg : PyObject) :
    ∃ data, decodeTelemetry nodeId (.dict msg) = .ok data ∧
      data.intersectionId = msg.get "intersection_id" (.str nodeId) ∧
      data.phase = msg.get "phase" (.str "UNKNOWN") ∧
      data.totalVehicles = msg.get "total_vehicles" (.int 0) :=
  ⟨_, rfl, rfl, rfl, rfl⟩

/-- What the coordinator keeps of a dictionary that ends with the members of the
telemetry. -/
theorem decodeTelemetry_setAll (nodeId : String) (d : PyObject) (t : TelemetryPayload) :
    ∃ data, decodeTelemetry nodeId (.dict (setAll d (phaseMember t :: stateMembers t))) =
        .ok data ∧
      data.intersectionId = d.get "intersection_id" (.str nodeId) ∧
      data.phase = .str (phaseToString t.currentPhase) ∧
      data.totalVehicles = .int t.queueState.totalCount := by
  obtain ⟨hid, hphase, htotal⟩ := key_ne_of_stateMembers t
  have hstate : stateMembers t =
      intMember "total_vehicles" t.queueState.totalCount :: (stateMembers t).tail := rfl
  obtain ⟨data, hdata, hget, hget', hget''⟩ := decodeTelemetry_dict nodeId
    (setAll d (phaseMember t :: stateMembers t))
  refine ⟨data, hdata, ?_, ?_, ?_⟩
  · rw [hget, get_setAll hid]
  · rw [hget', setAll_cons, get_setAll hphase, phaseMember, PyObject.get_set_self]
  · rw [hget'', setAll_cons, hstate, setAll_cons, get_setAll htotal, intMember,
      PyObject.get_set_self]

theorem run_afterId (hread : ∀ m ∈ phaseMember t :: stateMembers t, m.Read)
    (d : PyObject) (key : String) (stack : List Frame) (read : List Char) :
    run ⟨.object d key :: stack, .string false read .plain⟩
        ('"' :: ',' :: (membersText (phaseMember t :: stateMembers t) ++ ['}'])) =
      some (complete (.dict (setAll (d.set key (.str (String.ofList read)))
        (phaseMember t :: stateMembers t))) stack) := by
  have hquote : step ⟨.object d key :: stack, .string false read .plain⟩ '"' =
      some ⟨.object (d.set key (.str (String.ofList read))) "" :: stack, .after⟩ := rfl
  have hcomma : ∀ d' : PyObject, step ⟨.object d' "" :: stack, .after⟩ ',' =
      some ⟨.object d' "" :: stack, .nextKey⟩ := fun _ => rfl
  rw [run_cons hquote, run_cons (hcomma _), run_members _ _ hread]

theorem run_afterKey (stack : List Frame) (read w : List Char) :
    run ⟨stack, .string true read .plain⟩ ('"' :: ',' :: w) = none ∧
      run ⟨stack, .string true read .plain⟩ ('"' :: 'p' :: w) = none := by
  rcases stack with - | ⟨⟨d, key⟩ | items, rest⟩ <;> exact ⟨rfl, rfl⟩

theorem run_afterString (stack : List Frame) (read w : List Char) :
    run ⟨stack, .string false read .plain⟩ ('"' :: 'p' :: w) = none := by
  rcases stack with - | ⟨⟨d, key⟩ | items, rest⟩ <;> rfl

/-- Only a string that is a value in an object goes on as the text does after the
intersection id. -/
theorem mode_of_afterId {s s' : JsonText.State}
    (hword : ∀ rest v, s.mode = .word rest v → '"' ∉ rest) {w : List Char}
    (hs : run s ('"' :: ',' :: memberText "phase" w) = some s') :
    ∃ d key stack read, s = ⟨.object d key :: stack, .string false read .plain⟩ := by
  have htext : memberText "phase" w = '"' :: 'p' :: ("hase".toList ++ '"' :: ':' :: w) := rfl
  rw [htext] at hs
  obtain ⟨stack, mode⟩ := s
  have hfail : run ⟨stack, mode⟩ ('"' :: ',' :: '"' :: 'p' ::
      ("hase".toList ++ '"' :: ':' :: w)) = none →
        ∃ d key stack' read, (⟨stack, mode⟩ : JsonText.State) =
          ⟨.object d key :: stack', .string false read .plain⟩ := by
    intro hnone
    rw [hnone] at hs
    exact absurd hs (by simp)
  cases mode with
  | value =>
      exact hfail (run_afterString stack [','] _)
  | firstItem =>
      exact hfail (run_afterString stack [','] _)
  | firstKey =>
      exact hfail (run_afterKey stack [','] _).2
  | nextKey =>
      exact hfail (run_afterKey stack [','] _).2
  | colon => exact hfail rfl
  | after => exact hfail rfl
  | string isKey read escape =>
      cases escape with
      | plain =>
          cases isKey with
          | true => exact hfail (run_afterKey stack read _).1
          | false =>
              rcases stack with - | ⟨⟨d, key⟩ | items, rest⟩
              · exact hfail rfl
              · exact ⟨d, key, rest, read, rfl⟩
              · exact hfail rfl
      | backslash =>
          cases isKey with
          | true =>
              exact hfail (run_afterKey stack (read ++ ['"'] ++ [',']) _).2
          | false =>
              exact hfail (run_afterString stack (read ++ ['"'] ++ [',']) _)
      | _ => exact hfail rfl
  | number part n =>
      refine hfail ?_
      rcases stack with - | ⟨⟨d, key⟩ | items, rest⟩ <;> cases part <;> rfl
  | word rest v =>
      cases rest with
      | nil => exact hfail rfl
      | cons x rest =>
          have hx : '"' ≠ x := fun h => hword _ _ rfl (h ▸ List.mem_cons_self)
          simp [run, step, hx] at hs
  | done v => exact hfail rfl

theorem get_of_not_plain (hnode : Quotable t.nodeId)
    (hread : ∀ m ∈ phaseMember t :: stateMembers t, m.Read)
    (hspecial : ¬PlainText t.intersectionId) {msg : PyJson}
    (hloads : loads (telemetryToJson t) = some msg) :
    ∃ d, msg = .dict (setAll d (phaseMember t :: stateMembers t)) ∧
      ∀ default, d.get "intersection_id" default ≠ .str t.intersectionId := by
  rw [loads, telemetryToJson_toList, List.append_assoc, run_append, run_idsText hnode,
    Option.bind_some, run_append] at hloads
  obtain ⟨s'', hrun, hfinal⟩ := Option.bind_eq_some_iff.mp hloads
  obtain ⟨s, hs, hrest⟩ := Option.bind_eq_some_iff.mp hrun
  have hspecial' : ∃ c ∈ t.intersectionId.toList, ¬Plain c := by
    simpa [PlainText] using hspecial
  have hkeeps := keeps_of_not_plain _ (le_refl 0) hspecial' hs
  rw [Nat.zero_add] at hkeeps
  obtain ⟨d, key, stack, read, rfl⟩ := by
    have hphase := hrest
    rw [membersText, List.map_cons, itemsText_cons, List.append_assoc,
      memberText_append] at hphase
    exact mode_of_afterId (word_of_keeps hkeeps) hphase
  rw [run_afterId hread] at hrest
  rw [← Option.some.inj hrest] at hfinal
  rcases stack with - | ⟨⟨d', key'⟩ | items, rest⟩
  · refine ⟨d.set key (.str (String.ofList read)), (Option.some.inj hfinal).symm, ?_⟩
    intro default hget
    obtain ⟨v, hv, hshort⟩ := held_of_keeps hkeeps
    rw [PyObject.get, hv, Option.getD_some] at hget
    exact lt_irrefl _ (hshort _ hget)
  · simp [complete, final] at hfinal
  · simp [complete, final] at hfinal

theorem loads_of_plain (hnode : Quotable t.nodeId)
    (hread : ∀ m ∈ phaseMember t :: stateMembers t, m.Read)
    (hplain : PlainText t.intersectionId) :
    loads (telemetryToJson t) = some (.dict (setAll
      ((nodeMembers t).set "intersection_id" (.str t.intersectionId))
      (phaseMember t :: stateMembers t))) := by
  rw [loads, telemetryToJson_toList, List.append_assoc, run_append, run_idsText hnode,
    Option.bind_some, run_append, run_plain _ hplain, Option.bind_some,
    run_afterId hread, List.nil_append, String.ofList_toList]
  rfl

theorem plainText_of_roundTrips {nodeId : String} (hnode : Quotable t.nodeId)
    (hread : ∀ m ∈ phaseMember t :: stateMembers t, m.Read)
    (h : RoundTrips nodeId t) : PlainText t.intersectionId := by
  obtain ⟨data, hdata, hid, -, -⟩ := h
  by_contra hspecial
  obtain ⟨msg, hloads, hdecode⟩ := Option.bind_eq_some_iff.mp hdata
  obtain ⟨d, rfl, hget⟩ := get_of_not_plain hnode hread hspecial hloads
  obtain ⟨data', hdata', hid', -, -⟩ := decodeTelemetry_setAll nodeId d t
  rw [hdata'] at hdecode
  rw [← Option.some.inj hdecode, hid'] at hid
  exact hget _ hid

/-- With floats that are finite, and the other identifiers within their quotation
marks, a payload comes back exactly if the intersection id needs no escapes. -/
theorem roundTrips_iff (nodeId : String) (t : TelemetryPayload) (hfinite : t.Finite)
    (hnode : Quotable t.nodeId)
    (hlanes : ∀ lane ∈ t.queueState.lanes, Quotable lane.laneId) :
    RoundTrips nodeId t ↔ PlainText t.intersectionId := by
  have hread := read_members hfinite hlanes
  constructor
  · exact plainText_of_roundTrips hnode hread
  · intro hplain
    obtain ⟨data, hdata, hid, hphase, htotal⟩ := decodeTelemetry_setAll nodeId
      ((nodeMembers t).set "intersection_id" (.str t.intersectionId)) t
    refine ⟨data, ?_, ?_, hphase, htotal⟩
    · rw [receiveTelemetry, loads_of_plain hnode hread hplain, Option.bind_some, hdata]
      rfl
    · rw [hid, PyObject.get_set_self]

def crossing (intersectionId : String) : TelemetryPayload where
  nodeId := "edge-01"
  intersectionId := intersectionId
  queueState :=
    { lanes := [{ laneId := "north, left", count := 3, density := .fin (3 / 10),
                  avgWaitS := .fin 12 }]
      totalCount := 3
      maxWaitS := .fin 12
      maxDensity := .fin (3 / 10) }
  currentPhase := .greenNS
  uptimeS := .fin 86400
  fps := .fin (59 / 2)

theorem finite_crossing (intersectionId : String) : (crossing intersectionId).Finite where
  maxDensity := trivial
  maxWaitS := trivial
  uptimeS := trivial
  fps := trivial
  lanes := by simp [crossing]

theorem quotable_crossing (intersectionId : String) :
    Quotable (crossing intersectionId).nodeId ∧
      ∀ lane ∈ (crossing intersectionId).queueState.lanes, Quotable lane.laneId := by
  refine ⟨quotable_of_plainText (show PlainText "edge-01" by decide),
    fun lane hlane => ?_⟩
  rw [List.mem_singleton.mp hlane]
  exact quotable_of_plainText (show PlainText "north, left" by decide)

theorem roundTrips_crossing : RoundTrips "edge-01" (crossing "Av. Sur, 12") :=
  (roundTrips_iff "edge-01" (crossing "Av. Sur, 12") (finite_crossing _)
    (quotable_crossing _).1 (quotable_crossing _).2).mpr (by decide)

theorem not_roundTrips_crossing : (crossing "a\"b").Finite ∧
    ∀ nodeId, ¬RoundTrips nodeId (crossing "a\"b") := by
  refine ⟨finite_crossing _, fun nodeId h => ?_⟩
  have hread := read_members (finite_crossing "a\"b") (quotable_crossing _).2
  have hplain := plainText_of_roundTrips (quotable_crossing _).1 hread h
  exact absurd hplain (by decide)

end Semaforo
