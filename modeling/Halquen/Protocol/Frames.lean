import Halquen.Domain.Security
import Halquen.Library.Listing
import Halquen.Library.TextCodec

/-!
# Frames

An envelope travels as one line: its JSON text and a newline, of at most 65536 bytes together. The
bound is checked in four places: when an envelope is encoded, by the reading loops of the daemon and
of the client, and before a frame is decoded. They agree on every frame and on every way in which
the stream hands it out (`frames_agree`).

The type of the requests and of the responses and the JSON codec are parameters. Of the codec the
results use that it round-trips, that no text is empty and that it emits neither line feeds nor
carriage returns.
-/

set_option autoImplicit false

namespace Halquen.Protocol.Frames

open Halquen.Domain.Security Halquen.Library.Listing Halquen.Library.TextCodec

/-- `PROTOCOL_VERSION`. -/
def protocolVersion : UInt16 := 5

/-- `MAX_FRAME_SIZE`. -/
def maxFrameSize : Nat := 64 * 1024

/-- The end of a frame. -/
def lineFeed : UInt8 := 10

/-- A carriage return before the line feed belongs to the end. -/
def carriageReturn : UInt8 := 13

/-! ## Encoding -/

/-- Why a frame or an envelope is refused. -/
inductive CodecError where
  | frameTooLarge | emptyFrame | multipleMessages
  | unknownVersion (version : UInt16)
  | invalidRequestId
  | malformed (detail : String)
  deriving DecidableEq, Repr

/-- What the error says. -/
def CodecError.message : CodecError → String
  | .frameTooLarge => "frame exceeds 65536 bytes"
  | .emptyFrame => "frame is empty"
  | .multipleMessages => "frame contains more than one message"
  | .unknownVersion version => "unsupported protocol version " ++ toString version
  | .invalidRequestId => "invalid request identifier"
  | .malformed detail => "malformed JSON frame: " ++ detail

/-- A request or a response, with the version of the protocol and the identifier of the request. -/
structure Envelope (β : Type) where
  version : UInt16
  requestId : String
  body : β
  deriving DecidableEq

/-- The JSON codec of the envelopes. -/
structure Serde (α : Type) where
  toVec : α → List UInt8
  fromSlice : List UInt8 → Except String α

/-- What is relied on of the codec. -/
structure Serde.Lawful {α : Type} (serde : Serde α) : Prop where
  round_trip : ∀ a, serde.fromSlice (serde.toVec a) = .ok a
  nonempty : ∀ a, serde.toVec a ≠ []
  no_line_feed : ∀ a, lineFeed ∉ serde.toVec a
  no_carriage_return : ∀ a, carriageReturn ∉ serde.toVec a

/-- `validate_envelope`: the version is ours and the identifier may be logged. -/
def validateEnvelope (version : UInt16) (requestId : String) : Except CodecError Unit := do
  rejectIf (version != protocolVersion) (.unknownVersion version)
  rejectIf (!validIdentifier requestId 128) .invalidRequestId

section Codec

variable {β ρ σ : Type}

/-- `encode`: the value in JSON and a line feed, if they fit. -/
def encode {α : Type} (serde : Serde α) (value : α) : Except CodecError (List UInt8) := do
  let bytes := serde.toVec value
  rejectIf (decide (maxFrameSize < bytes.length + 1)) .frameTooLarge
  .ok (bytes ++ [lineFeed])

/-- `frame.strip_suffix(b"\n").unwrap_or(frame)`. -/
def stripLineFeed (frame : List UInt8) : List UInt8 :=
  if frame.getLast? = some lineFeed then frame.dropLast else frame

/-- `frame_payload`: one line that fits and is not empty. -/
def framePayload (frame : List UInt8) : Except CodecError (List UInt8) := do
  rejectIf (decide (maxFrameSize < frame.length)) .frameTooLarge
  let payload := stripLineFeed frame
  rejectIf payload.isEmpty .emptyFrame
  rejectIf (payload.contains lineFeed || payload.contains carriageReturn) .multipleMessages
  .ok payload

/-- The common part of `encodeRequest` and `encodeResponse`. -/
def encodeEnvelope (serde : Serde (Envelope β)) (envelope : Envelope β) :
    Except CodecError (List UInt8) := do
  validateEnvelope envelope.version envelope.requestId
  encode serde envelope

/-- The common part of `decodeRequest` and `decodeResponse`. -/
def decodeEnvelope (serde : Serde (Envelope β)) (frame : List UInt8) :
    Except CodecError (Envelope β) := do
  let payload ← framePayload frame
  let envelope ← (serde.fromSlice payload).mapError .malformed
  validateEnvelope envelope.version envelope.requestId
  .ok envelope

/-- `encode_request`. -/
def encodeRequest (serde : Serde (Envelope ρ)) (envelope : Envelope ρ) :
    Except CodecError (List UInt8) := encodeEnvelope serde envelope

/-- `decode_request`. -/
def decodeRequest (serde : Serde (Envelope ρ)) (frame : List UInt8) :
    Except CodecError (Envelope ρ) := decodeEnvelope serde frame

/-- `encode_response`. -/
def encodeResponse (serde : Serde (Envelope σ)) (envelope : Envelope σ) :
    Except CodecError (List UInt8) := encodeEnvelope serde envelope

/-- `decode_response`. -/
def decodeResponse (serde : Serde (Envelope σ)) (frame : List UInt8) :
    Except CodecError (Envelope σ) := decodeEnvelope serde frame

end Codec

/-! ## Reading -/

/-- Errors with which a reader gives up. -/
structure ReadErrors (ε : Type) where
  io : String → ε
  incompleteFrame : ε
  frameTooLarge : ε
  trailingBytes : ε

/-- The loop of both readers, over what the successive reads of the stream return. A read of no
bytes is the end of the stream, and so is the end of the list. -/
def readFrameWith {ε : Type} (errors : ReadErrors ε) (frame : List UInt8) :
    List (Except String (List UInt8)) → Except ε (List UInt8)
  | [] => .error errors.incompleteFrame
  | .error e :: _ => .error (errors.io e)
  | .ok chunk :: reads =>
      if chunk.isEmpty then
        .error errors.incompleteFrame
      else
        match chunk.findIdx? (· == lineFeed) with
        | some newline =>
            let used := newline + 1
            if maxFrameSize < frame.length + used then
              .error errors.frameTooLarge
            else if used ≠ chunk.length then
              .error errors.trailingBytes
            else
              .ok (frame ++ chunk.take used)
        | none =>
            if maxFrameSize < frame.length + chunk.length then
              .error errors.frameTooLarge
            else
              readFrameWith errors (frame ++ chunk) reads

/-- Errors of the daemon's side of a connection. -/
inductive DaemonError where
  | io (detail : String)
  | frameTooLarge | trailingBytes | incompleteFrame
  deriving DecidableEq, Repr

/-- Errors of the client's side of a connection. -/
inductive ClientError where
  | io (detail : String)
  | incompleteFrame | frameTooLarge | trailingBytes
  deriving DecidableEq, Repr

/-- `read_frame` of the daemon. -/
def Daemon.readFrame (reads : List (Except String (List UInt8))) :
    Except DaemonError (List UInt8) :=
  readFrameWith ⟨.io, .incompleteFrame, .frameTooLarge, .trailingBytes⟩ [] reads

/-- `read_frame` of the client. -/
def Client.readFrame (reads : List (Except String (List UInt8))) :
    Except ClientError (List UInt8) :=
  readFrameWith ⟨.io, .incompleteFrame, .frameTooLarge, .trailingBytes⟩ [] reads

/-! ## Frames and their segmentations -/

/-- The bytes come in reads that are not empty and fill the buffer of 1024 bytes at most. -/
structure Segmentation (bytes : List UInt8) (chunks : List (List UInt8)) : Prop where
  nonempty : ∀ chunk ∈ chunks, chunk ≠ []
  bounded : ∀ chunk ∈ chunks, chunk.length ≤ 1024
  flatten_eq : chunks.flatten = bytes

section Reading

variable {ε : Type} (errors : ReadErrors ε)

theorem findIdx?_of_not_mem {bytes : List UInt8} (h : lineFeed ∉ bytes) :
    bytes.findIdx? (· == lineFeed) = none := by
  rw [List.findIdx?_eq_none_iff]
  intro byte hbyte
  rw [beq_eq_false_iff_ne]
  rintro rfl
  exact h hbyte

/-- A line ends where its payload ends. -/
theorem findIdx?_line {payload : List UInt8} (h : lineFeed ∉ payload) :
    (payload ++ [lineFeed]).findIdx? (· == lineFeed) = some payload.length := by
  rw [List.findIdx?_append, findIdx?_of_not_mem h]
  simp

/-- A nonempty read of a line is the whole rest of the line, or a part of it before the line
feed. -/
theorem chunk_cases {chunk rest payload : List UInt8} (h : chunk ++ rest = payload ++ [lineFeed])
    (hpayload : lineFeed ∉ payload) :
    (chunk = payload ++ [lineFeed] ∧ rest = []) ∨
      ∃ payload', payload = chunk ++ payload' ∧ rest = payload' ++ [lineFeed] ∧
        lineFeed ∉ chunk ∧ lineFeed ∉ payload' := by
  rcases List.append_eq_append_iff.mp h with ⟨gap, hgap, hrest⟩ | ⟨gap, hgap, hrest⟩
  · right
    rw [hgap, List.mem_append, not_or] at hpayload
    exact ⟨gap, hgap, hrest, hpayload.1, hpayload.2⟩
  · cases gap with
    | nil =>
        right
        rw [List.append_nil] at hgap
        rw [List.nil_append] at hrest
        rw [← hgap] at hpayload
        exact ⟨[], by rw [List.append_nil, hgap], by simp [← hrest], hpayload, by simp⟩
    | cons byte gap =>
        left
        have hend : gap = [] ∧ rest = [] := by
          have hlength := congrArg List.length hrest
          simp only [List.length_append, List.length_cons, List.length_nil] at hlength
          exact ⟨List.eq_nil_of_length_eq_zero (by omega), List.eq_nil_of_length_eq_zero (by omega)⟩
        rw [hend.1, hend.2, List.append_nil, List.cons.injEq] at hrest
        rw [hgap, hend.1, hrest.1]
        exact ⟨rfl, hend.2⟩

/-- The loop returns a line within the limit, and refuses a longer one, however it is handed out
and whatever comes after it. -/
theorem readFrameWith_line (later : List (Except String (List UInt8))) :
    ∀ (chunks : List (List UInt8)) (frame payload : List UInt8), (∀ chunk ∈ chunks, chunk ≠ []) →
      lineFeed ∉ payload → chunks.flatten = payload ++ [lineFeed] →
      readFrameWith errors frame (chunks.map .ok ++ later) =
        if maxFrameSize < frame.length + payload.length + 1 then .error errors.frameTooLarge
        else .ok (frame ++ (payload ++ [lineFeed])) := by
  intro chunks
  induction chunks with
  | nil =>
      intro frame payload _ _ hflatten
      simp at hflatten
  | cons chunk chunks ih =>
      intro frame payload hnonempty hpayload hflatten
      have hchunk : chunk.isEmpty = false := by
        simpa using hnonempty chunk List.mem_cons_self
      rw [List.map_cons, List.cons_append, readFrameWith, hchunk]
      rcases chunk_cases hflatten hpayload with ⟨rfl, -⟩ | ⟨payload', rfl, hrest, hnone, hnone'⟩
      · -- The read ends with the line feed.
        rw [findIdx?_line hpayload]
        simp only [List.length_append, List.length_singleton, ne_eq, not_true_eq_false, if_false,
          Bool.false_eq_true, Nat.add_assoc]
        rw [List.take_of_length_le (by simp)]
      · -- The read is part of the line, which the remaining reads complete.
        rw [findIdx?_of_not_mem hnone]
        have hlater := ih (frame ++ chunk) payload'
          (fun c hc => hnonempty c (List.mem_cons_of_mem chunk hc)) hnone' hrest
        dsimp only
        rw [hlater]
        simp only [List.length_append, Bool.false_eq_true, if_false, List.append_assoc]
        by_cases hlong : maxFrameSize < frame.length + chunk.length
        · rw [if_pos hlong, if_pos (by omega)]
        · rw [if_neg hlong]
          simp only [Nat.add_assoc]

end Reading

/-! ## The limit -/

section Limit

variable {payload : List UInt8}

theorem stripLineFeed_line (payload : List UInt8) :
    stripLineFeed (payload ++ [lineFeed]) = payload := by
  unfold stripLineFeed
  rw [if_pos (by simp), List.dropLast_concat]

/-- A line is unpacked if it is within the limit. -/
theorem framePayload_line (hpayload : payload ≠ []) (hfeed : lineFeed ∉ payload)
    (hreturn : carriageReturn ∉ payload) :
    framePayload (payload ++ [lineFeed]) =
      if maxFrameSize < payload.length + 1 then .error .frameTooLarge else .ok payload := by
  have hempty : payload.isEmpty = false := by simpa using hpayload
  have hone : (payload.contains lineFeed || payload.contains carriageReturn) = false := by
    simp [hfeed, hreturn]
  unfold framePayload
  rw [stripLineFeed_line, List.length_append, List.length_singleton]
  dsimp only
  rw [hempty, hone]
  by_cases hlong : maxFrameSize < payload.length + 1
  · simp [hlong, rejectIf, bind, Except.bind]
  · simp [hlong, rejectIf, bind, Except.bind]

variable {chunks : List (List UInt8)}

/-- The daemon reads a line in whatever parts it comes. -/
theorem daemon_readFrame_line (hsegments : Segmentation (payload ++ [lineFeed]) chunks)
    (hfeed : lineFeed ∉ payload) (later : List (Except String (List UInt8))) :
    Daemon.readFrame (chunks.map .ok ++ later) =
      if maxFrameSize < payload.length + 1 then .error .frameTooLarge
      else .ok (payload ++ [lineFeed]) := by
  unfold Daemon.readFrame
  rw [readFrameWith_line _ later chunks [] payload hsegments.nonempty hfeed hsegments.flatten_eq,
    List.length_nil, Nat.zero_add, List.nil_append]

/-- So does the client. -/
theorem client_readFrame_line (hsegments : Segmentation (payload ++ [lineFeed]) chunks)
    (hfeed : lineFeed ∉ payload) (later : List (Except String (List UInt8))) :
    Client.readFrame (chunks.map .ok ++ later) =
      if maxFrameSize < payload.length + 1 then .error .frameTooLarge
      else .ok (payload ++ [lineFeed]) := by
  unfold Client.readFrame
  rw [readFrameWith_line _ later chunks [] payload hsegments.nonempty hfeed hsegments.flatten_eq,
    List.length_nil, Nat.zero_add, List.nil_append]

end Limit

/-! ## Envelopes -/

theorem encode_eq {α : Type} (serde : Serde α) (value : α) :
    encode serde value = if maxFrameSize < (serde.toVec value).length + 1 then
      .error .frameTooLarge else .ok (serde.toVec value ++ [lineFeed]) := by
  unfold encode
  by_cases hlong : maxFrameSize < (serde.toVec value).length + 1
  · simp [hlong, rejectIf, bind, Except.bind]
  · simp [hlong, rejectIf, bind, Except.bind]

section Envelopes

variable {β : Type} {serde : Serde (Envelope β)} (hserde : serde.Lawful)

theorem encodeEnvelope_of_valid {envelope : Envelope β}
    (hvalid : validateEnvelope envelope.version envelope.requestId = .ok ()) :
    encodeEnvelope serde envelope =
      if maxFrameSize < (serde.toVec envelope).length + 1 then .error .frameTooLarge
      else .ok (serde.toVec envelope ++ [lineFeed]) := by
  rw [← encode_eq, encodeEnvelope, hvalid]
  rfl

/-- What was encoded is valid and fits. -/
theorem of_encodeEnvelope {envelope : Envelope β} {bytes : List UInt8}
    (h : encodeEnvelope serde envelope = .ok bytes) :
    validateEnvelope envelope.version envelope.requestId = .ok () ∧
      ¬ maxFrameSize < (serde.toVec envelope).length + 1 ∧
      bytes = serde.toVec envelope ++ [lineFeed] := by
  have hvalid : validateEnvelope envelope.version envelope.requestId = .ok () := by
    obtain ⟨u, hvalid, -⟩ := except_bind_eq_ok_iff.mp h
    exact hvalid
  rw [encodeEnvelope_of_valid hvalid] at h
  by_cases hlong : maxFrameSize < (serde.toVec envelope).length + 1
  · rw [if_pos hlong] at h
    cases h
  · rw [if_neg hlong] at h
    cases h
    exact ⟨hvalid, hlong, rfl⟩

include hserde

/-- What was encoded is decoded to itself. -/
theorem decodeEnvelope_encodeEnvelope {envelope : Envelope β} {bytes : List UInt8}
    (h : encodeEnvelope serde envelope = .ok bytes) :
    decodeEnvelope serde bytes = .ok envelope := by
  obtain ⟨hvalid, hfits, rfl⟩ := of_encodeEnvelope h
  unfold decodeEnvelope
  rw [framePayload_line (hserde.nonempty envelope) (hserde.no_line_feed envelope)
    (hserde.no_carriage_return envelope), if_neg hfits]
  simp only [bind, Except.bind, hserde.round_trip, Except.mapError, hvalid]

end Envelopes

/-- Frames of these envelopes survive the way from the encoder through either reader to the
decoder, and encoding fails for the size only. -/
structure Travels {β : Type} (serde : Serde (Envelope β))
    (encoder : Envelope β → Except CodecError (List UInt8))
    (decoder : List UInt8 → Except CodecError (Envelope β)) : Prop where
  survives : ∀ envelope bytes, encoder envelope = .ok bytes →
    ∀ chunks, Segmentation bytes chunks → ∀ later,
      Daemon.readFrame (chunks.map .ok ++ later) = .ok bytes ∧
      Client.readFrame (chunks.map .ok ++ later) = .ok bytes ∧
      decoder bytes = .ok envelope
  fails_iff : ∀ envelope : Envelope β,
    validateEnvelope envelope.version envelope.requestId = .ok () →
    ((∃ e, encoder envelope = .error e) ↔ 65536 < (serde.toVec envelope).length + 1)

/-- So an envelope arrives as it was sent. -/
theorem travels_envelope {β : Type} {serde : Serde (Envelope β)} (hserde : serde.Lawful) :
    Travels serde (encodeEnvelope serde) (decodeEnvelope serde) where
  survives := by
    intro envelope bytes h chunks hsegments later
    have hdecode := decodeEnvelope_encodeEnvelope hserde h
    obtain ⟨-, hfits, rfl⟩ := of_encodeEnvelope h
    rw [daemon_readFrame_line hsegments (hserde.no_line_feed envelope) later,
      client_readFrame_line hsegments (hserde.no_line_feed envelope) later, if_neg hfits,
      if_neg hfits]
    exact ⟨rfl, rfl, hdecode⟩
  fails_iff := by
    intro envelope hvalid
    rw [encodeEnvelope_of_valid hvalid]
    by_cases hlong : maxFrameSize < (serde.toVec envelope).length + 1
    · rw [if_pos hlong]
      exact ⟨fun _ => hlong, fun _ => ⟨_, rfl⟩⟩
    · rw [if_neg hlong]
      constructor
      · rintro ⟨e, he⟩
        cases he
      · intro hlong'
        exact absurd hlong' hlong

/-- The four checks of the size accept and refuse the same lines. -/
structure SameLimit (payload : List UInt8) (chunks : List (List UInt8)) : Prop where
  within : payload.length + 1 ≤ 65536 →
    (∀ later, Daemon.readFrame (chunks.map .ok ++ later) = .ok (payload ++ [lineFeed])) ∧
    (∀ later, Client.readFrame (chunks.map .ok ++ later) = .ok (payload ++ [lineFeed])) ∧
    framePayload (payload ++ [lineFeed]) = .ok payload ∧
    ∀ (α : Type) (serde : Serde α) (value : α), serde.toVec value = payload →
      encode serde value = .ok (payload ++ [lineFeed])
  beyond : 65536 < payload.length + 1 →
    (∀ later, Daemon.readFrame (chunks.map .ok ++ later) = .error .frameTooLarge) ∧
    (∀ later, Client.readFrame (chunks.map .ok ++ later) = .error .frameTooLarge) ∧
    framePayload (payload ++ [lineFeed]) = .error .frameTooLarge ∧
    ∀ (α : Type) (serde : Serde α) (value : α), serde.toVec value = payload →
      encode serde value = .error .frameTooLarge

/-- Both sides refuse the same lines. -/
theorem sameLimit_line {payload : List UInt8} {chunks : List (List UInt8)}
    (hsegments : Segmentation (payload ++ [lineFeed]) chunks) (hpayload : payload ≠ [])
    (hfeed : lineFeed ∉ payload) (hreturn : carriageReturn ∉ payload) :
    SameLimit payload chunks where
  within h := by
    have hfits : ¬ maxFrameSize < payload.length + 1 := Nat.not_lt.mpr h
    refine ⟨fun later => ?_, fun later => ?_, ?_, ?_⟩
    · rw [daemon_readFrame_line hsegments hfeed later, if_neg hfits]
    · rw [client_readFrame_line hsegments hfeed later, if_neg hfits]
    · rw [framePayload_line hpayload hfeed hreturn, if_neg hfits]
    · rintro α serde value rfl
      rw [encode_eq, if_neg hfits]
  beyond h := by
    have hlong : maxFrameSize < payload.length + 1 := h
    refine ⟨fun later => ?_, fun later => ?_, ?_, ?_⟩
    · rw [daemon_readFrame_line hsegments hfeed later, if_pos hlong]
    · rw [client_readFrame_line hsegments hfeed later, if_pos hlong]
    · rw [framePayload_line hpayload hfeed hreturn, if_pos hlong]
    · rintro α serde value rfl
      rw [encode_eq, if_pos hlong]

/-- Requests and responses travel unchanged through both readers, whatever the segmentation, and
all four checks of the size stand at the same byte. -/
theorem frames_agree {ρ σ : Type} (requests : Serde (Envelope ρ))
    (responses : Serde (Envelope σ)) (hrequests : requests.Lawful)
    (hresponses : responses.Lawful) :
    Travels requests (encodeRequest requests) (decodeRequest requests) ∧
      Travels responses (encodeResponse responses) (decodeResponse responses) ∧
      ∀ (payload : List UInt8) (chunks : List (List UInt8)),
        Segmentation (payload ++ [lineFeed]) chunks → payload ≠ [] → lineFeed ∉ payload →
        carriageReturn ∉ payload → SameLimit payload chunks :=
  ⟨travels_envelope hrequests, travels_envelope hresponses, fun _ _ => sameLimit_line⟩

/-! ## A codec for one envelope -/

theorem countable_envelope {β : Type} [Countable β] : Countable (Envelope β) := by
  have hinj : Function.Injective fun e : Envelope β => (e.version.toNat, e.requestId, e.body) := by
    rintro ⟨version, requestId, body⟩ ⟨version', requestId', body'⟩ h
    simp only [Prod.mk.injEq, UInt16.toNat_inj] at h
    simp [h]
  exact hinj.countable

/-- Bytes of an ASCII text. -/
def asciiBytes (text : String) : List UInt8 := text.toList.map fun c => c.toNat.toUInt8

section Tabulated

variable {α : Type} [DecidableEq α] [Countable α]

/-- The text of one value, and marks for the others. -/
noncomputable def knownBytes (known : α) (text : String) (a : α) : List UInt8 :=
  if a = known then asciiBytes text else List.replicate (number a + 1) 35

theorem knownBytes_of {known : α} {text : String} {P : List UInt8 → Prop}
    (htext : P (asciiBytes text)) (hmarks : ∀ n, P (List.replicate (n + 1) 35)) (a : α) :
    P (knownBytes known text a) := by
  unfold knownBytes
  split
  · exact htext
  · exact hmarks (number a)

/-- The codec that writes one value as this text. -/
noncomputable def Serde.knowing (known : α) (text : String) : Serde α where
  toVec := knownBytes known text
  fromSlice bytes :=
    if bytes = asciiBytes text then .ok known
    else orError "expected value" (Function.partialInv (knownBytes known text) bytes)

/-- A serializer that knows one text is lawful. -/
theorem Serde.knowing_lawful {known : α} {text : String}
    (hmark : (35 : UInt8) ∉ asciiBytes text) (hnonempty : asciiBytes text ≠ [])
    (hfeed : lineFeed ∉ asciiBytes text) (hreturn : carriageReturn ∉ asciiBytes text) :
    (Serde.knowing known text).Lawful := by
  -- The bytes of other values are marks only, and their number tells them apart.
  have hinj : Function.Injective (knownBytes known text) := by
    -- What is written is read back as it was.
    intro a b h
    unfold knownBytes at h
    by_cases ha : a = known
    · by_cases hb : b = known
      · rw [ha, hb]
      · rw [if_pos ha, if_neg hb] at h
        exact absurd (by rw [h]; simp) hmark
    · by_cases hb : b = known
      · rw [if_neg ha, if_pos hb] at h
        exact absurd (by rw [← h]; simp) hmark
      · rw [if_neg ha, if_neg hb] at h
        have hlength := congrArg List.length h
        simp only [List.length_replicate] at hlength
        exact number_injective (by omega)
  refine ⟨?_, ?_, ?_, ?_⟩
  · intro a
    by_cases ha : a = known
    · subst ha
      simp [Serde.knowing, knownBytes]
    · have hother : knownBytes known text a ≠ asciiBytes text := by
        intro heq
        refine ha (hinj (heq.trans ?_))
        rw [knownBytes, if_pos rfl]
      simp only [Serde.knowing, if_neg hother, Function.partialInv_left hinj a]
      rfl
  · intro a
    -- No value is written as nothing, with a line feed or with a carriage return.
    exact knownBytes_of (P := fun bytes => bytes ≠ []) hnonempty (fun n => by simp) a
  · intro a
    exact knownBytes_of (P := fun bytes => lineFeed ∉ bytes) hfeed
      (fun n => by simp [lineFeed]) a
  · intro a
    exact knownBytes_of (P := fun bytes => carriageReturn ∉ bytes) hreturn
      (fun n => by simp [carriageReturn]) a

end Tabulated

/-! ### The request for the state of the daemon -/

/-- The request that has no arguments. -/
inductive HealthRequest where
  | health
  deriving DecidableEq

theorem countable_healthRequest : Countable HealthRequest :=
  (show Function.Injective fun _ : HealthRequest => 0 from fun a b _ => by
    cases a; cases b; rfl).countable

instance instCountableHealthEnvelope : Countable (Envelope HealthRequest) :=
  @countable_envelope _ countable_healthRequest

/-- An envelope with it. -/
def healthRequest : Envelope HealthRequest := ⟨5, "request:7:0", .health⟩

/-- `healthRequest` as `serde_json` writes it. -/
def healthRequestText : String :=
  "\x7b\"version\":5,\"request_id\":\"request:7:0\",\"request\":" ++
    "\x7b\"command\":\"health\"\x7d\x7d"

/-- The serializer that knows this envelope by its text. -/
noncomputable def healthRequests : Serde (Envelope HealthRequest) :=
  .knowing healthRequest healthRequestText

theorem healthRequests_lawful : healthRequests.Lawful :=
  Serde.knowing_lawful (by decide) (by decide) (by decide) (by decide)

theorem encode_healthRequest : encodeRequest healthRequests healthRequest =
    .ok (asciiBytes healthRequestText ++ [lineFeed]) := by
  have hknown : healthRequests.toVec healthRequest = asciiBytes healthRequestText := by
    simp [healthRequests, Serde.knowing, knownBytes]
  rw [encodeRequest, encodeEnvelope_of_valid (by decide), hknown, if_neg (by decide)]

theorem frames_agree_health :
    ∃ requests : Serde (Envelope HealthRequest), ∃ bytes,
      encodeRequest requests healthRequest = .ok bytes ∧
        Daemon.readFrame [.ok (bytes.take 20), .ok (bytes.drop 20)] = .ok bytes ∧
        decodeRequest requests bytes = .ok healthRequest := by
  have htravels := (frames_agree _ _ healthRequests_lawful healthRequests_lawful).1.survives
    healthRequest _ encode_healthRequest
    [(asciiBytes healthRequestText ++ [lineFeed]).take 20,
      (asciiBytes healthRequestText ++ [lineFeed]).drop 20]
    ⟨by decide, by decide, by decide⟩ []
  exact ⟨_, _, encode_healthRequest, htravels.1, htravels.2.2⟩

end Halquen.Protocol.Frames
