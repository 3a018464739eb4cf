import Semaforo.CommandParser
import Mathlib.Tactic

/-!
# The 64-bit arithmetic of the command parser

The parser narrows two integers of the payload to 64 signed bits, subtracts the
second from the clock and negates the bound of the skew and, in an error text,
the age.  `arithmetic` lists the exact results of these operations on a payload;
an operation overflows where its result does not fit.
-/

namespace Semaforo

namespace CommandParser

def FitsInt64 (i : ℤ) : Prop := -2 ^ 63 ≤ i ∧ i < 2 ^ 63

/-- Part 5 of `parse`. -/
def timestampArithmetic (p : CommandParser) (members : List (String × Json))
    (nowMs : ℤ) : List ℤ :=
  match requireInteger members "timestamp" with
  | .error _ => []
  | .ok t =>
      let age := nowMs - t.getInt64
      if wrap64 age < -p.maxFutureSkewMs then
        [age, -p.maxFutureSkewMs, -wrap64 age]
      else [age, -p.maxFutureSkewMs]

/-- Part 4b. -/
def sequenceArithmetic (p : CommandParser) (members : List (String × Json))
    (nowMs : ℤ) : List ℤ :=
  match requireInteger members "sequence_number" with
  | .error _ => []
  | .ok _ => p.timestampArithmetic members nowMs

/-- Part 3. -/
def phaseArithmetic (p : CommandParser) (members : List (String × Json))
    (nowMs : ℤ) : List ℤ :=
  match requireString members "phase" with
  | .error _ => []
  | .ok name =>
      match phaseFromString name with
      | none => []
      | some _ => p.sequenceArithmetic members nowMs

/-- Part 2. -/
def actionArithmetic (p : CommandParser) (members : List (String × Json))
    (nowMs : ℤ) : List ℤ :=
  match requireString members "action" with
  | .error _ => []
  | .ok action =>
      if action ≠ "CHANGE_PHASE" then [] else p.phaseArithmetic members nowMs

/-- The exact results of the subtraction and the negations of one call. -/
def arithmetic (p : CommandParser) (parseJson : List UInt8 → Option Json)
    (raw : List UInt8) (nowMs : ℤ) : List ℤ :=
  if raw = [] then []
  else if maxPayloadBytes < raw.length then []
  else
    match parseJson raw with
    | some (.object members) => p.actionArithmetic members nowMs
    | _ => []

/-- No operation overflows, and an accepted payload is stored with the integers
that it carries. -/
structure ExactArithmetic (parseJson : List UInt8 → Option Json)
    (raw : List UInt8) (nowMs : ℤ) : Prop where
  fits : ∀ i ∈ arithmetic {} parseJson raw nowMs, FitsInt64 i
  stored : ∀ members n t, parseJson raw = some (.object members) →
    members.lookup "sequence_number" = some (.integer n) →
      members.lookup "timestamp" = some (.integer t) →
        (parse {} parseJson raw nowMs).status = .ok →
          (parse {} parseJson raw nowMs).sequenceNumber = n ∧
            (parse {} parseJson raw nowMs).timestampMs = t

/-- The payload gets as far as the freshness gate. -/
structure Reads (parseJson : List UInt8 → Option Json) (raw : List UInt8)
    (n t : JsonInteger) : Prop where
  nonempty : raw ≠ []
  small : raw.length ≤ 8192
  members : ∃ members phase, parseJson raw = some (.object members) ∧
    Commands (fun t' => t' = t) members phase ∧
    members.lookup "sequence_number" = some (.integer n)

/-- The timestamp, read as a signed integer, is not too far below zero, and if
it is fresh then neither integer exceeds the signed range. -/
def Representable (nowMs : ℤ) (n t : JsonInteger) : Prop :=
  nowMs - t.getInt64 < 2 ^ 63 ∧
    (-1000 ≤ nowMs - t.getInt64 → nowMs - t.getInt64 ≤ 2000 →
      (n : ℤ) < 2 ^ 63 ∧ (t : ℤ) < 2 ^ 63)

/-! ## Narrowing -/

theorem wrap64_eq_self {i : ℤ} (hi : FitsInt64 i) : wrap64 i = i := by
  obtain ⟨hlow, hhigh⟩ := hi
  rw [wrap64, Int.bmod_def]
  norm_num at hlow hhigh ⊢
  split_ifs <;> omega

theorem getInt64_fits (t : JsonInteger) : FitsInt64 t.getInt64 := by
  obtain ⟨t, hlow, hhigh⟩ := t
  simp only [FitsInt64, JsonInteger.getInt64, wrap64, Int.bmod_def]
  norm_num at hlow hhigh ⊢
  split_ifs <;> omega

theorem getInt64_eq_iff (t : JsonInteger) : t.getInt64 = t ↔ (t : ℤ) < 2 ^ 63 := by
  constructor
  · intro heq
    rw [← heq]
    exact (getInt64_fits t).2
  · intro hhigh
    exact wrap64_eq_self ⟨t.2.1, hhigh⟩

/-! ## Payloads that reach the gate -/

variable {parseJson : List UInt8 → Option Json} {raw : List UInt8} {nowMs : ℤ}
  {n t : JsonInteger}

theorem Reads.parse_eq (h : Reads parseJson raw n t) (nowMs : ℤ) :
    ∃ members cmd, members.lookup "timestamp" = some (.integer t) ∧
      cmd.sequenceNumber = n.getInt64 ∧
      parse {} parseJson raw nowMs = parseTimestamp {} members nowMs cmd ∧
      arithmetic {} parseJson raw nowMs = timestampArithmetic {} members nowMs := by
  obtain ⟨members, phase, hjson, hcommands, hsequence⟩ := h.members
  obtain ⟨_, ht, rfl⟩ := hcommands.timestamp
  obtain ⟨name, hname, hphase⟩ := hcommands.phase
  have hlarge : ¬ maxPayloadBytes < raw.length := not_lt.mpr h.small
  rw [← requireString_eq_ok_iff] at hname
  rw [← phaseFromString_eq_some_iff] at hphase
  have haction := requireString_eq_ok_iff.mpr hcommands.action
  have hseq := requireInteger_eq_ok_iff.mpr hsequence
  refine ⟨members,
    { parsePriority members { action := "CHANGE_PHASE", phase := phase } with
      sequenceNumber := n.getInt64 }, ht, rfl, ?_, ?_⟩
  · rw [parse, if_neg h.nonempty, if_neg hlarge, hjson]
    simp only [parseAction, haction, ne_eq, not_true_eq_false, if_false,
      parsePhase, hname, hphase, parseSequence, hseq]
  · rw [arithmetic, if_neg h.nonempty, if_neg hlarge, hjson]
    simp only [actionArithmetic, haction, ne_eq, not_true_eq_false, if_false,
      phaseArithmetic, hname, hphase, sequenceArithmetic, hseq]

theorem timestampArithmetic_eq {p : CommandParser}
    {members : List (String × Json)}
    (ht : members.lookup "timestamp" = some (.integer t)) :
    p.timestampArithmetic members nowMs =
      if wrap64 (nowMs - t.getInt64) < -p.maxFutureSkewMs then
        [nowMs - t.getInt64, -p.maxFutureSkewMs, -wrap64 (nowMs - t.getInt64)]
      else [nowMs - t.getInt64, -p.maxFutureSkewMs] := by
  rw [timestampArithmetic, requireInteger_eq_ok_iff.mpr ht]

theorem parseTimestamp_timestampMs {p : CommandParser}
    {members : List (String × Json)} {cmd : ParsedCommand}
    (ht : members.lookup "timestamp" = some (.integer t)) :
    (p.parseTimestamp members nowMs cmd).timestampMs = t.getInt64 := by
  rw [parseTimestamp, requireInteger_eq_ok_iff.mpr ht]
  dsimp only
  split_ifs <;> rfl

theorem parseTimestamp_sequenceNumber {p : CommandParser}
    {members : List (String × Json)} {cmd : ParsedCommand} :
    (p.parseTimestamp members nowMs cmd).sequenceNumber =
      cmd.sequenceNumber := by
  unfold parseTimestamp
  split
  · rfl
  · dsimp only
    split_ifs <;> rfl

theorem mem_timestampArithmetic {p : CommandParser}
    {members : List (String × Json)} {i : ℤ}
    (hi : i ∈ p.timestampArithmetic members nowMs) :
    ∃ t, members.lookup "timestamp" = some (.integer t) := by
  rw [← requireInteger_exists_iff]
  unfold timestampArithmetic at hi
  cases hfield : requireInteger members "timestamp" with
  | error why =>
      rw [hfield] at hi
      exact absurd hi List.not_mem_nil
  | ok t => exact ⟨t, rfl⟩

theorem mem_sequenceArithmetic {p : CommandParser}
    {members : List (String × Json)} {i : ℤ}
    (hi : i ∈ p.sequenceArithmetic members nowMs) :
    (∃ n, members.lookup "sequence_number" = some (.integer n)) ∧
      i ∈ p.timestampArithmetic members nowMs := by
  rw [← requireInteger_exists_iff]
  unfold sequenceArithmetic at hi
  cases hfield : requireInteger members "sequence_number" with
  | error why =>
      rw [hfield] at hi
      exact absurd hi List.not_mem_nil
  | ok n =>
      rw [hfield] at hi
      exact ⟨⟨n, rfl⟩, hi⟩

theorem mem_phaseArithmetic {p : CommandParser}
    {members : List (String × Json)} {i : ℤ}
    (hi : i ∈ p.phaseArithmetic members nowMs) :
    (∃ name phase, members.lookup "phase" = some (.string name) ∧
      (name, phase) ∈ operationalPhases) ∧
      i ∈ p.sequenceArithmetic members nowMs := by
  simp only [← requireString_eq_ok_iff, ← phaseFromString_eq_some_iff]
  unfold phaseArithmetic at hi
  cases hfield : requireString members "phase" with
  | error why =>
      rw [hfield] at hi
      exact absurd hi List.not_mem_nil
  | ok name =>
      rw [hfield] at hi
      dsimp only at hi
      cases hphase : phaseFromString name with
      | none =>
          rw [hphase] at hi
          exact absurd hi List.not_mem_nil
      | some phase =>
          rw [hphase] at hi
          exact ⟨⟨name, phase, rfl, hphase⟩, hi⟩

theorem mem_actionArithmetic {p : CommandParser}
    {members : List (String × Json)} {i : ℤ}
    (hi : i ∈ p.actionArithmetic members nowMs) :
    members.lookup "action" = some (.string "CHANGE_PHASE") ∧
      i ∈ p.phaseArithmetic members nowMs := by
  rw [← requireString_eq_ok_iff]
  unfold actionArithmetic at hi
  cases hfield : requireString members "action" with
  | error why =>
      rw [hfield] at hi
      exact absurd hi List.not_mem_nil
  | ok action =>
      rw [hfield] at hi
      dsimp only at hi
      split_ifs at hi with hverb
      · exact absurd hi List.not_mem_nil
      · rw [ne_eq, not_not] at hverb
        exact ⟨by rw [hverb], hi⟩

/-- A call that computes anything has reached the gate. -/
theorem reads_of_mem_arithmetic {i : ℤ}
    (hi : i ∈ arithmetic {} parseJson raw nowMs) :
    ∃ n t, Reads parseJson raw n t := by
  unfold arithmetic at hi
  split_ifs at hi with hempty hlarge
  · exact absurd hi List.not_mem_nil
  · exact absurd hi List.not_mem_nil
  split at hi
  · rename_i members hjson
    obtain ⟨haction, hi⟩ := mem_actionArithmetic hi
    obtain ⟨⟨name, phase, hname, hphase⟩, hi⟩ := mem_phaseArithmetic hi
    obtain ⟨⟨n, hn⟩, hi⟩ := mem_sequenceArithmetic hi
    obtain ⟨t, ht⟩ := mem_timestampArithmetic hi
    exact ⟨n, t, hempty, not_lt.mp hlarge, members, phase, hjson,
      ⟨haction, ⟨name, hname, hphase⟩, ⟨n, hn⟩, t, ht, rfl⟩, hn⟩
  · exact absurd hi List.not_mem_nil

/-- So has a call that accepts, and it has read the members of the object. -/
theorem reads_of_ok {members : List (String × Json)}
    (hjson : parseJson raw = some (.object members))
    (hn : members.lookup "sequence_number" = some (.integer n))
    (ht : members.lookup "timestamp" = some (.integer t))
    (hok : (parse {} parseJson raw nowMs).status = .ok) :
    Reads parseJson raw n t := by
  obtain ⟨phase, haccepts⟩ := (parse_status_ok_iff parseJson raw).mp hok
  obtain ⟨members', hjson', hcommands⟩ := haccepts.members
  obtain rfl : members = members' := by
    rw [hjson, Option.some.injEq, Json.object.injEq] at hjson'
    exact hjson'
  exact ⟨haccepts.nonempty, haccepts.small, members, phase, hjson,
    ⟨hcommands.action, hcommands.phase, hcommands.sequence, t, ht, rfl⟩, hn⟩

/-! ## The exact condition -/

/-- Once the subtraction fits, so do the negations. -/
theorem arithmetic_fits_iff (hlow : 0 ≤ nowMs)
    (h : Reads parseJson raw n t) :
    (∀ i ∈ arithmetic {} parseJson raw nowMs, FitsInt64 i) ↔
      nowMs - t.getInt64 < 2 ^ 63 := by
  obtain ⟨members, cmd, ht, -, -, harithmetic⟩ := h.parse_eq nowMs
  obtain ⟨htlow, hthigh⟩ := getInt64_fits t
  rw [harithmetic, timestampArithmetic_eq ht]
  constructor
  · intro hfits
    refine (hfits (nowMs - t.getInt64) ?_).2
    split_ifs <;> exact List.mem_cons_self
  · intro hage
    have hageFits : FitsInt64 (nowMs - t.getInt64) := by
      refine ⟨?_, hage⟩
      linarith
    have hskew : FitsInt64 (-(1000 : ℤ)) := by
      constructor <;> norm_num
    rw [wrap64_eq_self hageFits]
    split_ifs with hfuture
    · have hnegated : FitsInt64 (-(nowMs - t.getInt64)) := by
        constructor <;> linarith
      rw [List.forall_mem_cons, List.forall_mem_cons, List.forall_mem_singleton]
      exact ⟨hageFits, hskew, hnegated⟩
    · rw [List.forall_mem_cons, List.forall_mem_singleton]
      exact ⟨hageFits, hskew⟩

theorem status_ok_iff_of_reads (hlow : 0 ≤ nowMs)
    (hage : nowMs - t.getInt64 < 2 ^ 63) (h : Reads parseJson raw n t) :
    (parse {} parseJson raw nowMs).status = .ok ↔
      -1000 ≤ nowMs - t.getInt64 ∧ nowMs - t.getInt64 ≤ 2000 := by
  obtain ⟨members, cmd, ht, -, hparse, -⟩ := h.parse_eq nowMs
  have hfits : FitsInt64 (nowMs - t.getInt64) := by
    have hhigh := (getInt64_fits t).2
    refine ⟨?_, hage⟩
    linarith
  rw [hparse, parseTimestamp_ok_iff]
  constructor
  · rintro ⟨t', ht', hfuture, hstale⟩
    rw [ht, Option.some.injEq, Json.integer.injEq] at ht'
    subst ht'
    rw [wrap64_eq_self hfits] at hfuture hstale
    exact ⟨not_lt.mp hfuture, not_lt.mp hstale⟩
  · rintro ⟨hfuture, hstale⟩
    refine ⟨t, ht, ?_, ?_⟩
    · rw [wrap64_eq_self hfits]
      exact not_lt.mpr hfuture
    · rw [wrap64_eq_self hfits]
      exact not_lt.mpr hstale

theorem exactArithmetic_iff_representable
    (parseJson : List UInt8 → Option Json) (raw : List UInt8) (nowMs : ℤ)
    (hlow : 0 ≤ nowMs) :
    ExactArithmetic parseJson raw nowMs ↔
      ∀ n t, Reads parseJson raw n t → Representable nowMs n t := by
  constructor
  · intro hexact n t hreads
    have hage := (arithmetic_fits_iff hlow hreads).mp hexact.fits
    refine ⟨hage, fun hfuture hstale => ?_⟩
    have hok := (status_ok_iff_of_reads hlow hage hreads).mpr ⟨hfuture, hstale⟩
    obtain ⟨members, phase, hjson, hcommands, hn⟩ := hreads.members
    obtain ⟨_, ht, rfl⟩ := hcommands.timestamp
    obtain ⟨hsequence, htimestamp⟩ := hexact.stored members n _ hjson hn ht hok
    obtain ⟨members', cmd, ht', hcmd, hparse, -⟩ :=
      hreads.parse_eq nowMs
    rw [hparse, parseTimestamp_sequenceNumber, hcmd, getInt64_eq_iff] at hsequence
    rw [hparse, parseTimestamp_timestampMs ht', getInt64_eq_iff] at htimestamp
    exact ⟨hsequence, htimestamp⟩
  · intro hrepresentable
    constructor
    · intro i hi
      obtain ⟨n, t, hreads⟩ := reads_of_mem_arithmetic hi
      exact (arithmetic_fits_iff hlow hreads).mpr
        (hrepresentable n t hreads).1 i hi
    · intro members n t hjson hn ht hok
      have hreads := reads_of_ok hjson hn ht hok
      obtain ⟨hage, hstored⟩ := hrepresentable n t hreads
      obtain ⟨hfuture, hstale⟩ := (status_ok_iff_of_reads hlow hage hreads).mp hok
      obtain ⟨hn', ht'⟩ := hstored hfuture hstale
      obtain ⟨members', cmd, htime, hcmd, hparse, -⟩ :=
        hreads.parse_eq nowMs
      rw [hparse, parseTimestamp_sequenceNumber, hcmd,
        parseTimestamp_timestampMs htime]
      exact ⟨(getInt64_eq_iff n).mpr hn', (getInt64_eq_iff t).mpr ht'⟩

theorem exactArithmetic_iff_representable_command :
    let parseJson := commandDecoder ⟨1, by decide⟩ ⟨1760000000000, by decide⟩
    let raw := commandText ⟨1, by decide⟩ ⟨1760000000000, by decide⟩
    ExactArithmetic parseJson raw 1760000000000 ↔
      ∀ n t, Reads parseJson raw n t → Representable 1760000000000 n t :=
  exactArithmetic_iff_representable _ _ _ (by decide)

/-- The largest sequence number is accepted as `-1`, and a timestamp at the
lower end of the range makes the subtraction overflow. -/
theorem corner_integers_break_arithmetic :
    ¬ (∀ (parseJson : List UInt8 → Option Json) (raw : List UInt8) (nowMs : ℤ),
      0 ≤ nowMs → nowMs ≤ 2 ^ 62 → ExactArithmetic parseJson raw nowMs) ∧
      (let parsed := parse {} (commandDecoder ⟨2 ^ 64 - 1, by decide⟩ ⟨5000, by decide⟩)
        (commandText ⟨2 ^ 64 - 1, by decide⟩ ⟨5000, by decide⟩) 5000
      parsed.status = .ok ∧ parsed.sequenceNumber = -1) ∧
      2 ^ 63 ∈ arithmetic {}
        (commandDecoder ⟨1, by decide⟩ ⟨-2 ^ 63, by decide⟩)
        (commandText ⟨1, by decide⟩ ⟨-2 ^ 63, by decide⟩) 0 := by
  have hok : (parse {} (commandDecoder ⟨2 ^ 64 - 1, by decide⟩
      ⟨5000, by decide⟩) (commandText ⟨2 ^ 64 - 1, by decide⟩ ⟨5000, by decide⟩)
      5000).status = .ok := by decide +kernel
  have hstored : (parse {} (commandDecoder ⟨2 ^ 64 - 1, by decide⟩
      ⟨5000, by decide⟩) (commandText ⟨2 ^ 64 - 1, by decide⟩ ⟨5000, by decide⟩)
      5000).sequenceNumber = -1 := by
    decide +kernel
  refine ⟨fun hall => ?_, ⟨hok, hstored⟩, by decide +kernel⟩
  have hexact := hall (commandDecoder ⟨2 ^ 64 - 1, by decide⟩ ⟨5000, by decide⟩)
    (commandText ⟨2 ^ 64 - 1, by decide⟩ ⟨5000, by decide⟩) 5000 (by norm_num)
    (by norm_num)
  have hsequence := (hexact.stored _ _ _ (if_pos rfl) rfl rfl hok).1
  rw [hstored] at hsequence
  norm_num at hsequence

end CommandParser

end Semaforo
