import Halquen.Ai.Agent
import Halquen.Library.Readers
import Halquen.Protocol.Frames

/-!
# The process of an agent

A started agent prints a line with its proposals, is sent the results, and ends. Its output is read
through a limit that lies one byte above the configured one, first up to the line feed and then to
the end, and what has been read is counted. So a byte too many is always noticed, by the line or by
the rest, and no more than that byte is ever taken from the process (`output_bounds`).

The adaptors of the runtime and the JSON codec are parameters. The results are encoded before the
rest is read: if they do not fit into a frame, the completion fails with that and not with the size
of the output.
-/

set_option autoImplicit false

namespace Halquen.Ai.AgentProcess

open Halquen.Domain.Ids Halquen.Domain.Capability Halquen.Domain.Security Halquen.Domain.Agent
open Halquen.Ai.Agent Halquen.Library.Listing Halquen.Library.Readers Halquen.Protocol.Frames

/-- `MAX_BROKER_RESULT_BYTES`: what the agent is sent at most. -/
def maxBrokerResultBytes : Nat := 64 * 1024

/-- `usize::saturating_add`. -/
def saturatingAdd (a b : Nat) : Nat := min (a + b) (2 ^ 64 - 1)

/-- What the agent is told of its proposals. -/
structure AgentBrokerResponse where
  version : Nat
  kind : String
  results : List AgentBrokerProposalResult
  deriving DecidableEq

/-- The reply to an agent, in the version of its output. -/
def brokerResponse (results : List AgentBrokerProposalResult) : AgentBrokerResponse :=
  ⟨agentProtocolVersion, "broker_result", results⟩

/-- JSON encoder of the results. -/
abbrev ResponseEncoder := AgentBrokerResponse → Option (List UInt8)

/-- `encode_frame`: the text and a line feed, if they fit together. -/
def encodeFrame (encoded : Option (List UInt8)) (maxBytes : Nat) :
    Except AgentHostError (List UInt8) := do
  let bytes ← orError .io encoded
  rejectIf (decide (maxBytes < saturatingAdd bytes.length 1)) .invalidConfiguration
  return bytes ++ [lineFeed]

/-- What is known of a run that has ended. -/
structure AgentCompletion where
  stderrBytes : Nat
  deriving DecidableEq

/-- What an operation on the process comes to. -/
inductive Awaited where
  | done | failed | late
  deriving DecidableEq

/-- A wait that failed or came too late is an error of the run. -/
def Awaited.outcome : Awaited → Except AgentHostError Unit
  | .done => .ok ()
  | .failed => .error .io
  | .late => .error .timedOut

/-- What the surroundings of a process decide: whether the deadline is still ahead, what each
operation comes to, how the process ends, and what is gathered of its error output. -/
structure Conditions where
  receiveInTime : Bool
  readLine : Awaited
  completeInTime : Bool
  writeResults : Awaited
  shutdown : Awaited
  readRest : Awaited
  wait : Awaited
  exitSuccess : Bool
  stderr : Except AgentHostError (List UInt8)

/-- No operation on the process fails or comes too late. -/
structure Conditions.Quiet (conditions : Conditions) : Prop where
  receiveInTime : conditions.receiveInTime = true
  readLine : conditions.readLine = .done
  completeInTime : conditions.completeInTime = true
  writeResults : conditions.writeResults = .done
  shutdown : conditions.shutdown = .done
  readRest : conditions.readRest = .done
  wait : conditions.wait = .done

section

variable (R : LimitedReaders UInt8)

/-- A process that was started. -/
structure RunningAgent where
  identity : AgentExecutionIdentity
  stdin : Bool
  stdout : R.Reader
  stderrTask : Bool
  stdoutLimit : Nat
  stdoutRead : Nat
  killed : Bool

/-- What `start` returns for a process that prints these pieces. -/
def RunningAgent.start (identity : AgentExecutionIdentity) (maxStdoutBytes : UInt32)
    (pieces : List (List UInt8)) : RunningAgent R where
  identity := identity
  stdin := true
  stdout := R.limited (saturatingAdd maxStdoutBytes.toNat 1) pieces
  stderrTask := true
  stdoutLimit := maxStdoutBytes.toNat
  stdoutRead := 0
  killed := false

variable {R}

/-- The process is killed, and its error output is not waited for any longer. -/
def RunningAgent.fail {α : Type} (running : RunningAgent R) (error : AgentHostError) :
    Except AgentHostError α × RunningAgent R :=
  (.error error, { running with killed := true, stderrTask := false })

/-- `receive_proposals`: the first line of the output, read and checked within the time of the
run. -/
def receiveProposals (decode : WireDecoder) (conditions : Conditions) (running : RunningAgent R) :
    Except AgentHostError AgentInvocationResult × RunningAgent R :=
  if conditions.receiveInTime then
    match conditions.readLine.outcome with
    | .error e => { running with stdout := R.abandoned running.stdout }.fail e
    | .ok () =>
        let read := R.readUntil lineFeed running.stdout
        let running := { running with
          stdout := read.2, stdoutRead := saturatingAdd running.stdoutRead read.1.length }
        if read.1.length = 0 then
          running.fail .malformedOutput
        else if running.stdoutLimit < running.stdoutRead then
          running.fail .outputTooLarge
        else
          match parseAgentOutput decode (stripLineFeed read.1) running.identity with
          | .ok result => (.ok result, running)
          | .error e => running.fail e
  else
    running.fail .timedOut

/-- The operation under the deadline of `complete`. -/
def finishOutput (conditions : Conditions) (running : RunningAgent R) :
    Except AgentHostError Unit := do
  conditions.writeResults.outcome
  conditions.shutdown.outcome
  conditions.readRest.outcome
  rejectIf (decide (running.stdoutLimit <
    saturatingAdd running.stdoutRead (R.readToEnd running.stdout).1.length)) .outputTooLarge
  conditions.wait.outcome
  rejectIf (!conditions.exitSuccess) .processFailed

/-- The reader after the operation. -/
def readerAfter (conditions : Conditions) (running : RunningAgent R) : R.Reader :=
  match conditions.writeResults, conditions.shutdown, conditions.readRest with
  | .done, .done, .done => (R.readToEnd running.stdout).2
  | .done, .done, _ => R.abandoned running.stdout
  | _, _, _ => running.stdout

/-- `complete`: the reply is written, and the process is waited for. -/
def complete (encode : ResponseEncoder) (conditions : Conditions) (running : RunningAgent R)
    (results : List AgentBrokerProposalResult) :
    Except AgentHostError AgentCompletion × RunningAgent R :=
  match encodeFrame (encode (brokerResponse results)) maxBrokerResultBytes with
  | .error e => running.fail e
  | .ok _ =>
      if !conditions.completeInTime then
        running.fail .timedOut
      else if !running.stdin then
        running.fail .io
      else
        let finished := { running with stdin := false, stdout := readerAfter conditions running }
        match finishOutput conditions running with
        | .error e => (.error e, { finished with killed := true })
        | .ok () =>
            let stderr := if running.stderrTask then conditions.stderr else .ok []
            (stderr.map fun bytes => ⟨bytes.length⟩, { finished with stderrTask := false })

end

/-! ## What is read -/

theorem saturatingAdd_of_lt {a b : Nat} (h : a + b < 2 ^ 64) : saturatingAdd a b = a + b := by
  unfold saturatingAdd
  omega

section

variable {R : LimitedReaders UInt8} {decode : WireDecoder} {encode : ResponseEncoder}
  {identity : AgentExecutionIdentity} {limit : UInt32} {pieces : List (List UInt8)}
  {conditions : Conditions}

/-- The line that the process prints first, with its line feed. -/
def firstLine (pieces : List (List UInt8)) : List UInt8 := upTo lineFeed pieces.flatten

theorem limit_add_one (limit : UInt32) : saturatingAdd limit.toNat 1 = limit.toNat + 1 := by
  have hlimit := limit.toNat_lt
  exact saturatingAdd_of_lt (by omega)

/-- The line is read up to one byte above the limit. -/
theorem line_start (hR : R.Lawful) :
    (R.readUntil lineFeed (RunningAgent.start R identity limit pieces).stdout).1 =
      (firstLine pieces).take (limit.toNat + 1) := by
  rw [hR.readUntil_fst, RunningAgent.start, hR.ahead_limited, limit_add_one, upTo_take, firstLine]

/-- The process after its line was read. -/
def lineRead (R : LimitedReaders UInt8) (identity : AgentExecutionIdentity) (limit : UInt32)
    (pieces : List (List UInt8)) : RunningAgent R :=
  { RunningAgent.start R identity limit pieces with
    stdout := (R.readUntil lineFeed (RunningAgent.start R identity limit pieces).stdout).2
    stdoutRead := ((firstLine pieces).take (limit.toNat + 1)).length }

/-- The line decides what is received. -/
theorem receiveProposals_start (hR : R.Lawful) (hquiet : conditions.Quiet) :
    receiveProposals decode conditions (RunningAgent.start R identity limit pieces) =
      if pieces.flatten = [] then (lineRead R identity limit pieces).fail .malformedOutput
      else if limit.toNat < (firstLine pieces).length then
        (lineRead R identity limit pieces).fail .outputTooLarge
      else
        match parseAgentOutput decode (stripLineFeed (firstLine pieces)) identity with
        | .ok result => (.ok result, lineRead R identity limit pieces)
        | .error e => (lineRead R identity limit pieces).fail e := by
  have hlimit := limit.toNat_lt
  -- The reader hands out one byte more than the limit, by which a line that is too long shows.
  have hcut : ((firstLine pieces).take (limit.toNat + 1)).length =
      min (limit.toNat + 1) (firstLine pieces).length := List.length_take
  have hcount : saturatingAdd (RunningAgent.start R identity limit pieces).stdoutRead
      ((firstLine pieces).take (limit.toNat + 1)).length =
        ((firstLine pieces).take (limit.toNat + 1)).length := by
    show saturatingAdd 0 _ = _
    rw [saturatingAdd_of_lt (by omega), Nat.zero_add]
  have hnone : ((firstLine pieces).take (limit.toNat + 1)).length = 0 ↔ pieces.flatten = [] := by
    rw [← upTo_eq_nil_iff lineFeed, ← firstLine, ← List.length_eq_zero_iff]
    omega
  have hlong : (RunningAgent.start R identity limit pieces).stdoutLimit <
      ((firstLine pieces).take (limit.toNat + 1)).length ↔
        limit.toNat < (firstLine pieces).length := by
    show limit.toNat < _ ↔ _
    omega
  unfold receiveProposals
  rw [if_pos hquiet.receiveInTime, hquiet.readLine]
  simp only [Awaited.outcome, line_start hR, hcount]
  -- The three outcomes of the source: nothing, too much, or a line to parse.
  by_cases hempty : pieces.flatten = []
  · rw [if_pos hempty, if_pos (hnone.mpr hempty)]
    rfl
  · rw [if_neg hempty, if_neg (hnone.not.mpr hempty)]
    by_cases hoverlong : limit.toNat < (firstLine pieces).length
    · rw [if_pos hoverlong, if_pos (hlong.mpr hoverlong)]
      rfl
    · have hline : (firstLine pieces).take (limit.toNat + 1) = firstLine pieces :=
        List.take_of_length_le (by omega)
      rw [if_neg hoverlong, if_neg (hlong.not.mpr hoverlong), lineRead, hline]
      rfl

/-- The first call on a started process. -/
def received (R : LimitedReaders UInt8) (decode : WireDecoder) (identity : AgentExecutionIdentity)
    (limit : UInt32) (pieces : List (List UInt8)) (conditions : Conditions) :
    Except AgentHostError AgentInvocationResult × RunningAgent R :=
  receiveProposals decode conditions (.start R identity limit pieces)

theorem received_fst (hR : R.Lawful) (hquiet : conditions.Quiet) :
    (received R decode identity limit pieces conditions).1 =
      if pieces.flatten = [] then .error .malformedOutput
      else if limit.toNat < (firstLine pieces).length then .error .outputTooLarge
      else parseAgentOutput decode (stripLineFeed (firstLine pieces)) identity := by
  rw [received, receiveProposals_start hR hquiet]
  split
  · rfl
  · split
    · rfl
    · cases parseAgentOutput decode (stripLineFeed (firstLine pieces)) identity with
      | ok result => rfl
      | error e => rfl

/-- What is received is the first line, whole and within the limit. -/
theorem received_of_eq_ok (hR : R.Lawful) (hquiet : conditions.Quiet)
    {result : AgentInvocationResult}
    (h : (received R decode identity limit pieces conditions).1 = .ok result) :
    (firstLine pieces).length ≤ limit.toNat ∧
      (received R decode identity limit pieces conditions).2 =
        lineRead R identity limit pieces := by
  rw [received, receiveProposals_start hR hquiet] at h ⊢
  split at h
  · cases h
  · split at h
    · cases h
    · rename_i hempty hlong
      split at h
      · rw [if_neg hempty, if_neg hlong]
        exact ⟨Nat.le_of_not_lt hlong, rfl⟩
      · cases h

/-- The results go into a frame of at most 65536 bytes. -/
def FitsFrame (encode : ResponseEncoder) (results : List AgentBrokerProposalResult) : Prop :=
  ∃ bytes, encode (brokerResponse results) = some bytes ∧ bytes.length + 1 ≤ 65536

theorem encodeFrame_eq_ok_iff (results : List AgentBrokerProposalResult) :
    (∃ frame, encodeFrame (encode (brokerResponse results)) maxBrokerResultBytes = .ok frame) ↔
      FitsFrame encode results := by
  have hsize : ∀ bytes : List UInt8,
      decide (maxBrokerResultBytes < saturatingAdd bytes.length 1) = false ↔
        bytes.length + 1 ≤ 65536 := by
    intro bytes
    rw [decide_eq_false_iff_not, saturatingAdd, maxBrokerResultBytes]
    omega
  simp only [encodeFrame, except_bind_eq_ok_iff, orError_eq_ok_iff, rejectIf_eq_ok_iff, hsize]
  constructor
  · rintro ⟨frame, bytes, hbytes, -, hfits, -⟩
    exact ⟨bytes, hbytes, hfits⟩
  · rintro ⟨bytes, hbytes, hfits⟩
    exact ⟨bytes ++ [lineFeed], bytes, hbytes, (), hfits, rfl⟩

/-- The rest is read up to one byte above the limit, line and rest together. -/
theorem rest_lineRead (hR : R.Lawful) (hfits : (firstLine pieces).length ≤ limit.toNat) :
    (lineRead R identity limit pieces).stdoutRead +
      (R.readToEnd (lineRead R identity limit pieces).stdout).1.length =
        min (limit.toNat + 1) pieces.flatten.length := by
  have hline : (firstLine pieces).take (limit.toNat + 1) = firstLine pieces :=
    List.take_of_length_le (by omega)
  have hle : (firstLine pieces).length ≤ pieces.flatten.length := length_upTo_le _ _
  have hahead : R.ahead (RunningAgent.start R identity limit pieces).stdout =
      pieces.flatten.take (limit.toNat + 1) := by
    rw [RunningAgent.start, hR.ahead_limited, limit_add_one]
  have hread : (lineRead R identity limit pieces).stdoutRead = (firstLine pieces).length :=
    congrArg List.length hline
  have hleft : R.ahead (lineRead R identity limit pieces).stdout =
      (pieces.flatten.take (limit.toNat + 1)).drop (firstLine pieces).length := by
    rw [lineRead, hR.ahead_readUntil, hahead, upTo_take, ← firstLine, hline]
  rw [hR.readToEnd_fst, hleft, hread, List.length_drop, List.length_take]
  omega

/-- The count decides, after it the exit status and the error output. -/
theorem complete_lineRead (hR : R.Lawful) (hquiet : conditions.Quiet)
    (hfits : (firstLine pieces).length ≤ limit.toNat) {results : List AgentBrokerProposalResult}
    (hframe : FitsFrame encode results) :
    (complete encode conditions (lineRead R identity limit pieces) results).1 =
      if limit.toNat < pieces.flatten.length then .error .outputTooLarge
      else if conditions.exitSuccess then conditions.stderr.map fun bytes => ⟨bytes.length⟩
      else .error .processFailed := by
  obtain ⟨frame, hframe⟩ := (encodeFrame_eq_ok_iff results).mpr hframe
  have hlimit := limit.toNat_lt
  -- What was read of the first line counts towards the limit of the whole output.
  have hrest : (lineRead R identity limit pieces).stdoutRead +
      (R.readToEnd (lineRead R identity limit pieces).stdout).1.length =
        min (limit.toNat + 1) pieces.flatten.length := rest_lineRead hR hfits
  have hcount : saturatingAdd (lineRead R identity limit pieces).stdoutRead
      (R.readToEnd (lineRead R identity limit pieces).stdout).1.length =
        min (limit.toNat + 1) pieces.flatten.length := by
    rw [saturatingAdd_of_lt (by omega), hrest]
  -- Together they exceed the limit just where the output does.
  have hlong : decide ((lineRead R identity limit pieces).stdoutLimit <
      saturatingAdd (lineRead R identity limit pieces).stdoutRead
        (R.readToEnd (lineRead R identity limit pieces).stdout).1.length) =
          decide (limit.toNat < pieces.flatten.length) := by
    rw [hcount]
    show decide (limit.toNat < _) = _
    exact decide_eq_decide.mpr (by omega)
  have hfinish : finishOutput conditions (lineRead R identity limit pieces) =
      if limit.toNat < pieces.flatten.length then .error .outputTooLarge
      else if conditions.exitSuccess then .ok () else .error .processFailed := by
    rw [finishOutput, hquiet.writeResults, hquiet.shutdown, hquiet.readRest, hquiet.wait, hlong]
    -- Only then are the bytes of the error output looked at.
    by_cases htotal : limit.toNat < pieces.flatten.length
    · rw [if_pos htotal, decide_eq_true htotal]
      rfl
    · rw [if_neg htotal, decide_eq_false htotal]
      cases conditions.exitSuccess with
      | true => rfl
      | false => rfl
  have hopen : (lineRead R identity limit pieces).stdin = true := rfl
  unfold complete
  rw [hframe, hquiet.completeInTime, hopen, hfinish]
  by_cases htotal : limit.toNat < pieces.flatten.length
  · simp only [if_pos htotal]
    rfl
  · simp only [if_neg htotal]
    cases conditions.exitSuccess with
    | true => rfl
    | false => rfl

/-! ## What is taken from the process -/

/-- So many bytes are taken from the process in all, if its reader goes on to the end. -/
def Counted (bound : Nat) (running : RunningAgent R) : Prop :=
  R.drawn running.stdout + R.limit running.stdout = bound

theorem counted_start (hR : R.Lawful) :
    Counted (limit.toNat + 1) (RunningAgent.start R identity limit pieces) := by
  rw [Counted, RunningAgent.start, hR.drawn_limited, hR.limit_limited, limit_add_one, Nat.zero_add]

variable {bound : Nat} {running : RunningAgent R}

theorem counted_receiveProposals (hR : R.Lawful) (h : Counted bound running) :
    Counted bound (receiveProposals decode conditions running).2 := by
  have hread := (hR.counted_readUntil lineFeed running.stdout).trans h
  have habandoned := (hR.counted_abandoned running.stdout).trans h
  unfold receiveProposals
  split
  · cases conditions.readLine.outcome with
    | error e => exact habandoned
    | ok u =>
        dsimp only
        split
        · exact hread
        · split
          · exact hread
          · split
            · exact hread
            · exact hread
  · exact h

theorem counted_readerAfter (hR : R.Lawful) (h : Counted bound running) :
    R.drawn (readerAfter conditions running) + R.limit (readerAfter conditions running) =
      bound := by
  unfold readerAfter
  split
  · exact (hR.counted_readToEnd running.stdout).trans h
  · exact (hR.counted_abandoned running.stdout).trans h
  · exact h

theorem counted_complete (hR : R.Lawful) (h : Counted bound running)
    (results : List AgentBrokerProposalResult) :
    Counted bound (complete encode conditions running results).2 := by
  have hafter : R.drawn (readerAfter conditions running) +
      R.limit (readerAfter conditions running) = bound := counted_readerAfter hR h
  unfold complete
  cases encodeFrame (encode (brokerResponse results)) maxBrokerResultBytes with
  | error e => exact h
  | ok frame =>
      dsimp only
      split
      · exact h
      · split
        · exact h
        · cases finishOutput conditions running with
          | error e => exact hafter
          | ok u => exact hafter

/-! ## The bounds -/

/-- The second call, with the results of the proposals. -/
def completed (R : LimitedReaders UInt8) (decode : WireDecoder) (encode : ResponseEncoder)
    (identity : AgentExecutionIdentity) (limit : UInt32) (pieces : List (List UInt8))
    (conditions : Conditions) (results : List AgentBrokerProposalResult) :
    Except AgentHostError AgentCompletion × RunningAgent R :=
  complete encode conditions (received R decode identity limit pieces conditions).2 results

variable (R decode encode identity limit pieces conditions) in
/-- The bounds on what a process prints, from its start through the line to its end. -/
structure OutputBounds : Prop where
  /-- Both calls succeed for an output within the limit only. -/
  success : ∀ results result completion,
    (received R decode identity limit pieces conditions).1 = .ok result →
    (completed R decode encode identity limit pieces conditions results).1 = .ok completion →
    pieces.flatten.length ≤ limit.toNat
  line_too_large : (received R decode identity limit pieces conditions).1 =
    .error .outputTooLarge ↔ limit.toNat < (firstLine pieces).length
  malformed : (received R decode identity limit pieces conditions).1 = .error .malformedOutput ↔
    (firstLine pieces).length ≤ limit.toNat ∧ (pieces.flatten = [] ∨ ∀ result,
      parseAgentOutput decode (stripLineFeed (firstLine pieces)) identity ≠ .ok result)
  total_too_large : ∀ results result,
    (received R decode identity limit pieces conditions).1 = .ok result →
    limit.toNat < pieces.flatten.length → FitsFrame encode results →
    (completed R decode encode identity limit pieces conditions results).1 =
      .error .outputTooLarge
  /-- Results without a frame are refused before the rest is read. -/
  unframed : ∀ results bytes, encode (brokerResponse results) = some bytes →
    65536 < bytes.length + 1 →
    (completed R decode encode identity limit pieces conditions results).1 =
      .error .invalidConfiguration
  /-- No more is taken from the process than one byte above the limit. -/
  taken : ∀ results,
    R.drawn (received R decode identity limit pieces conditions).2.stdout ≤ limit.toNat + 1 ∧
      R.drawn (completed R decode encode identity limit pieces conditions results).2.stdout ≤
        limit.toNat + 1

/-- Nothing is completed for results without a frame. -/
theorem fitsFrame_of_complete {results : List AgentBrokerProposalResult}
    {completion : AgentCompletion}
    (h : (complete encode conditions running results).1 = .ok completion) :
    FitsFrame encode results := by
  apply (encodeFrame_eq_ok_iff results).mp
  unfold complete at h
  cases hframe : encodeFrame (encode (brokerResponse results)) maxBrokerResultBytes with
  | ok frame => exact ⟨frame, rfl⟩
  | error e =>
      rw [hframe] at h
      cases h

theorem complete_unframed {results : List AgentBrokerProposalResult} {bytes : List UInt8}
    (hbytes : encode (brokerResponse results) = some bytes) (hlong : 65536 < bytes.length + 1) :
    (complete encode conditions running results).1 = .error .invalidConfiguration := by
  have hsize : maxBrokerResultBytes < saturatingAdd bytes.length 1 := by
    rw [maxBrokerResultBytes, saturatingAdd]
    omega
  have hframe : encodeFrame (some bytes) maxBrokerResultBytes = .error .invalidConfiguration := by
    show (do rejectIf (decide _) _; _ : Except AgentHostError (List UInt8)) = _
    rw [decide_eq_true hsize]
    rfl
  rw [complete, hbytes, hframe]
  rfl

/-- For every output of a process in whatever pieces, and every limit: without errors of the system
and within the time, the two calls keep the bounds. -/
theorem output_bounds (hR : R.Lawful) (hquiet : conditions.Quiet) :
    OutputBounds R decode encode identity limit pieces conditions where
  success := by
    intro results result completion hreceived hcompleted
    obtain ⟨hfits, hstate⟩ := received_of_eq_ok hR hquiet hreceived
    by_contra hlong
    -- A run that completes has sent its results, so they fit in a frame.
    have hframe := fitsFrame_of_complete hcompleted
    rw [completed, hstate, complete_lineRead hR hquiet hfits hframe,
      if_pos (Nat.lt_of_not_le hlong)] at hcompleted
    cases hcompleted
  line_too_large := by
    rw [received_fst hR hquiet]
    split
    -- No output: malformed, and not too long.
    · rename_i hempty
      rw [firstLine, hempty]
      exact iff_of_false (fun h => by cases h) (Nat.not_lt_zero _)
    · split
      · rename_i hlong
        exact iff_of_true rfl hlong
      · rename_i hshort
        refine iff_of_false (fun h => ?_) hshort
        cases error_of_parseAgentOutput h
  malformed := by
    rw [received_fst hR hquiet]
    split
    -- No output is the first of the two malformed cases.
    · rename_i hempty
      have hnone : (firstLine pieces).length ≤ limit.toNat := by
        rw [firstLine, hempty]
        exact Nat.zero_le _
      exact iff_of_true rfl ⟨hnone, .inl hempty⟩
    · rename_i hprinted
      split
      · rename_i hlong
        exact iff_of_false (fun h => by cases h) fun h => absurd h.1 (Nat.not_le_of_lt hlong)
      · rename_i hshort
        -- A whole line is malformed exactly if its parser says so.
        cases hparsed : parseAgentOutput decode (stripLineFeed (firstLine pieces)) identity with
        | ok result =>
            refine iff_of_false (fun h => by cases h) ?_
            rintro ⟨-, hempty | hrefused⟩
            · exact hprinted hempty
            · exact hrefused result rfl
        | error e =>
            rw [error_of_parseAgentOutput hparsed]
            exact iff_of_true rfl ⟨Nat.le_of_not_lt hshort, .inr fun _ h => by cases h⟩
  total_too_large := by
    intro results result hreceived hlong hframe
    obtain ⟨hfits, hstate⟩ := received_of_eq_ok hR hquiet hreceived
    rw [completed, hstate, complete_lineRead hR hquiet hfits hframe, if_pos hlong]
  unframed _ _ hbytes hlong := complete_unframed hbytes hlong
  taken := by
    intro results
    -- The number of bytes taken is kept by each of the two phases.
    have hreceived : Counted (limit.toNat + 1)
        (received R decode identity limit pieces conditions).2 :=
      counted_receiveProposals hR (counted_start hR)
    have hcompleted : Counted (limit.toNat + 1)
        (completed R decode encode identity limit pieces conditions results).2 :=
      counted_complete hR hreceived results
    exact ⟨Nat.le.intro hreceived, Nat.le.intro hcompleted⟩

end

/-! ## Output behind the line -/

/-- Conditions in which nothing fails. -/
def quiet : Conditions where
  receiveInTime := true
  readLine := .done
  completeInTime := true
  writeResults := .done
  shutdown := .done
  readRest := .done
  wait := .done
  exitSuccess := true
  stderr := .ok []

theorem quiet_quiet : quiet.Quiet := ⟨rfl, rfl, rfl, rfl, rfl, rfl, rfl⟩

/-- The output of an agent that proposes nothing. -/
def emptyLine : List UInt8 :=
  asciiBytes "\x7b\"version\":1,\"kind\":\"proposals\",\"message\":\"\",\"proposals\":[]\x7d"

/-- A decoder that knows a line without proposals. -/
def emptyDecoder : WireDecoder := fun bytes =>
  if bytes = emptyLine then some ⟨1, "proposals", "", []⟩ else none

/-- The name of a disposition in JSON. -/
def dispositionText : AgentBrokerDisposition → String
  | .executed => "executed"
  | .simulated => "simulated"
  | .confirmationRequired => "confirmation_required"
  | .denied => "denied"
  | .failed => "failed"

/-- An optional text in JSON. -/
def optionalText : Option String → String
  | none => "null"
  | some text => "\"" ++ text ++ "\""

/-- JSON text of a result without characters that have to be escaped. -/
def resultText (result : AgentBrokerProposalResult) : String :=
  "\x7b\"index\":" ++ toString result.index ++ ",\"capability_id\":\"" ++
    result.capabilityId.asStr ++ "\",\"disposition\":\"" ++ dispositionText result.disposition ++
    "\",\"execution_id\":" ++ optionalText result.executionId ++ ",\"confirmation_id\":" ++
    optionalText result.confirmationId ++ ",\"message\":\"" ++ result.message ++ "\"\x7d"

/-- The reply to an agent in JSON, for texts that need no escape. -/
def plainEncoder : ResponseEncoder := fun response =>
  some (asciiBytes ("\x7b\"version\":" ++ toString response.version ++ ",\"kind\":\"" ++
    response.kind ++ "\",\"results\":[" ++
    ",".intercalate (response.results.map resultText) ++ "]\x7d"))

/-- Some agent. -/
def someAgent : AgentExecutionIdentity where
  agentId := .generate .agent ⟨0, 0, 0⟩
  instanceId := .generate .agentInstance ⟨0, 0, 1⟩
  sessionId := .generate .agentSession ⟨0, 0, 2⟩

/-- A line without proposals, and a kilobyte behind it. -/
def chatty : List (List UInt8) := [emptyLine ++ [lineFeed], List.replicate 1024 120]

theorem output_bounds_chatty :
    OutputBounds (buffered 8192) emptyDecoder plainEncoder someAgent 1024 chatty quiet :=
  output_bounds (buffered_lawful 8192) quiet_quiet

/-- A result with a message of so many letters. -/
def longResult (letters : Nat) : AgentBrokerProposalResult where
  index := 0
  capabilityId := openAppDescriptor.id
  disposition := .denied
  executionId := none
  confirmationId := none
  message := .ofList (List.replicate letters 'x')

theorem length_le_append (front text back : String) :
    text.toList.length ≤ (front ++ text ++ back).toList.length := by
  rw [String.toList_append, String.toList_append, List.length_append, List.length_append]
  omega

/-- The text of the results holds the message of each. -/
theorem length_message_le (result : AgentBrokerProposalResult) {bytes : List UInt8}
    (h : plainEncoder (brokerResponse [result]) = some bytes) :
    result.message.toList.length ≤ bytes.length := by
  have hone : ",".intercalate ((brokerResponse [result]).results.map resultText) =
      resultText result := rfl
  rw [plainEncoder, Option.some.injEq, hone] at h
  rw [← h, asciiBytes, List.length_map]
  exact (length_le_append _ result.message _).trans (length_le_append _ (resultText result) _)

theorem length_longResult (letters : Nat) :
    (longResult letters).message.toList.length = letters := by
  rw [longResult, String.toList_ofList, List.length_replicate]

theorem received_chatty :
    (received (buffered 8192) emptyDecoder someAgent 1024 chatty quiet).1 = .ok ⟨"", []⟩ := by
  have hprinted : ¬ chatty.flatten = [] := by decide
  have hshort : ¬ (1024 : UInt32).toNat < (firstLine chatty).length := by decide
  have hparsed : parseAgentOutput emptyDecoder (stripLineFeed (firstLine chatty)) someAgent =
      .ok ⟨"", []⟩ := by
    decide
  rw [received_fst (buffered_lawful 8192) quiet_quiet, if_neg hprinted, if_neg hshort, hparsed]

/-- Too much output is not what is reported if the results have no frame. -/
theorem total_not_reported :
    ¬ ∀ (R : LimitedReaders UInt8) (decode : WireDecoder) (encode : ResponseEncoder)
      (identity : AgentExecutionIdentity) (limit : UInt32) (pieces : List (List UInt8))
      (conditions : Conditions) (results : List AgentBrokerProposalResult)
      (result : AgentInvocationResult), R.Lawful → conditions.Quiet →
      (received R decode identity limit pieces conditions).1 = .ok result →
      limit.toNat < pieces.flatten.length →
      (completed R decode encode identity limit pieces conditions results).1 =
        .error .outputTooLarge := by
  intro h
  have hreported := h (buffered 8192) emptyDecoder plainEncoder someAgent 1024 chatty quiet
    [longResult 65536] _ (buffered_lawful 8192) quiet_quiet received_chatty (by decide +kernel)
  obtain ⟨bytes, hbytes⟩ : ∃ bytes,
      plainEncoder (brokerResponse [longResult 65536]) = some bytes := ⟨_, rfl⟩
  have hlong := length_message_le (longResult 65536) hbytes
  rw [length_longResult] at hlong
  have hrefused : (completed (buffered 8192) emptyDecoder plainEncoder someAgent 1024 chatty quiet
      [longResult 65536]).1 = .error .invalidConfiguration :=
    complete_unframed hbytes (Nat.lt_succ_of_le hlong)
  rw [hrefused] at hreported
  cases hreported

end Halquen.Ai.AgentProcess
