import Halquen.Library.Interleaving
import Halquen.Protocol.Frames
import Halquen.Protocol.Messages

/-!
# Connections

Clients talk to the daemon over streams of their own, one request and one response on each. The
daemon reads a frame, decodes it and dispatches the request: a cancellation and a chat whose
identifier is in use are answered at once, every other request waits for the lock of the service.
This module is the whole path, from the client's request to the response that it returns, as a
system in which clients and the tasks of the daemon take their steps in any order, read and write
any number of bytes at a time and may give up on their stream.

Beside the clients there may be other programs, which send what they like.
-/

set_option autoImplicit false

namespace Halquen.Service.Connections

open Halquen.Library.Interleaving Halquen.Library.Listing Halquen.Library.Run
open Halquen.Protocol.Frames Halquen.Protocol.Messages

/-! ## Readers -/

/-- What a reader has after a chunk: more to read, or a whole frame. -/
inductive Reading where
  | more (frame : List UInt8)
  | complete (frame : List UInt8)

/-- One turn of the loop of both readers, for a chunk that is not empty. -/
def readChunk {ε : Type} (errors : ReadErrors ε) (frame chunk : List UInt8) : Except ε Reading :=
  match chunk.findIdx? (· == lineFeed) with
  | some newline =>
      let used := newline + 1
      if maxFrameSize < frame.length + used then .error errors.frameTooLarge
      else if used ≠ chunk.length then .error errors.trailingBytes
      else .ok (.complete (frame ++ chunk.take used))
  | none =>
      if maxFrameSize < frame.length + chunk.length then .error errors.frameTooLarge
      else .ok (.more (frame ++ chunk))

/-- The reader that is fed one chunk at a time is the reader of the list of all chunks. -/
theorem readFrameWith_cons {ε : Type} (errors : ReadErrors ε) (frame : List UInt8)
    {chunk : List UInt8} (hchunk : chunk ≠ []) (reads : List (Except String (List UInt8))) :
    readFrameWith errors frame (.ok chunk :: reads) =
      match readChunk errors frame chunk with
      | .error e => .error e
      | .ok (.complete frame) => .ok frame
      | .ok (.more frame) => readFrameWith errors frame reads := by
  have hempty : ¬ chunk.isEmpty = true := fun h => hchunk (List.isEmpty_iff.mp h)
  rw [readFrameWith, if_neg hempty, readChunk]
  cases chunk.findIdx? (· == lineFeed) with
  | none =>
      dsimp only
      split <;> rfl
  | some newline =>
      dsimp only
      split
      · rfl
      · split <;> rfl

/-- What is read at once: some bytes of those that have arrived, 1024 at most. -/
def chunkOf (arrived : List UInt8) (n : Nat) : List UInt8 := arrived.take (min (n + 1) 1024)

/-! ## The two ends -/

/-- The other end of a connection: a client with a request, or any program that sends some bytes. -/
inductive Peer (ρ : Type) where
  | client (request : Envelope ρ)
  | other (bytes : List UInt8)

/-- Why a client has no response. -/
inductive RequestError where
  | protocol (error : CodecError)
  | read (error : ClientError)
  | requestIdMismatch
  | gaveUp
  deriving DecidableEq

/-- Why a task of the daemon has sent none. -/
inductive ConnectionError where
  | protocol (error : CodecError)
  | read (error : DaemonError)
  | panicked
  | gaveUp
  deriving DecidableEq

/-- How far a client has come. -/
inductive ClientPhase (τ : Type) where
  | writing (rest : List UInt8)
  | reading (frame : List UInt8)
  | finished (outcome : Except RequestError τ)
  deriving DecidableEq

/-- How far the task of a connection has come. -/
inductive ServerPhase (ρ τ : Type) where
  | reading (frame : List UInt8)
  | decoded (request : Envelope ρ)
  /-- Waits for the service. -/
  | waiting (request : Envelope ρ)
  /-- A chat was handled, and its entry in the registry is still to be removed. -/
  | handled (response : Envelope τ)
  | writing (rest : List UInt8)
  | closed (result : Except ConnectionError Unit)
  deriving DecidableEq

/-- Both ends of a stream, and the bytes on their way to the daemon and back. -/
structure Connection (ρ τ : Type) where
  client : ClientPhase τ
  server : ServerPhase ρ τ
  up : List UInt8
  down : List UInt8

/-- The client sends nothing more. -/
def ClientPhase.shutDown {τ : Type} : ClientPhase τ → Bool
  | .writing _ => false
  | _ => true

/-- The task of the daemon sends nothing more. -/
def ServerPhase.shutDown {ρ τ : Type} : ServerPhase ρ τ → Bool
  | .closed _ => true
  | _ => false

/-! ## The daemon -/

/-- What the dispatcher distinguishes. -/
inductive RequestKind where
  | chat
  | cancelChat (requestId : String)
  | other

/-- The service behind the connections. `handle` is given what the environment answers while the
request is handled; it may panic, and then there is no response. -/
structure HalquenService (S α ρ τ : Type) where
  kind : ρ → RequestKind
  handle : α → S → Envelope ρ → Option τ × S
  chatCancellation : Bool → τ
  error : ProtocolErrorBody → τ

/-- A request that the daemon has dealt with, and what the service was given if it was handled by
the service. -/
structure Entry (ι α ρ τ : Type) where
  connection : ι
  request : Envelope ρ
  body : Option τ
  input : Option α

/-- What the tasks of the daemon share. `log` records the requests in the
order in which they were dealt with. -/
structure Daemon (ι S α ρ τ : Type) where
  service : S
  cancellations : List String
  log : List (Entry ι α ρ τ)

/-- What may happen on a connection. -/
inductive Event (α : Type) where
  | clientWrites (n : Nat)
  | clientShutsDown
  | clientReads (n : Nat)
  | clientGivesUp
  | serverReads (n : Nat)
  /-- `alive` tells whether the receiver of a cancelled chat is. -/
  | serverDispatches (alive : Bool)
  | serviceHandles (input : α)
  | serverCleansUp
  | serverWrites (n : Nat)
  | serverCloses
  | serverGivesUp

/-- One side gives up. -/
def Event.isFailure {α : Type} : Event α → Bool
  | .clientGivesUp | .serverGivesUp => true
  | _ => false

theorem Event.reads_or {α : Type} (e : Event α) :
    (∃ n, e = .clientReads n) ∨ ∀ n, e ≠ .clientReads n := by
  cases e with
  | clientReads n => exact .inl ⟨n, rfl⟩
  | _ => exact .inr (by simp)

section

variable {ι S α ρ τ : Type} (requests : Serde (Envelope ρ)) (responses : Serde (Envelope τ))
  (service : HalquenService S α ρ τ)

/-- Response to a request, under its identifier. -/
def respondTo (request : Envelope ρ) (body : τ) : Envelope τ :=
  ⟨protocolVersion, request.requestId, body⟩

/-- What a client is told of a frame that was refused. -/
def codecErrorBody : CodecError → ProtocolErrorBody
  | .frameTooLarge => ⟨.frameTooLarge, "request frame is too large"⟩
  | .unknownVersion _ => ⟨.unknownVersion, "unsupported protocol version"⟩
  | _ => ⟨.malformedRequest, "malformed request"⟩

/-- The answer to a frame that was refused. -/
def codecErrorResponse (error : CodecError) : Envelope τ :=
  ⟨protocolVersion, "request:invalid", service.error (codecErrorBody error)⟩

/-- What a client is told when its identifier is in use. -/
def duplicateRequest : ProtocolErrorBody :=
  ⟨.malformedRequest, "request identifier is already active"⟩

/-- The response is written, if it can be encoded. -/
def respond (response : Envelope τ) : ServerPhase ρ τ :=
  match encodeResponse responses response with
  | .ok bytes => .writing bytes
  | .error e => .closed (.error (.protocol e))

/-- A whole frame has been read. -/
def receive (frame : List UInt8) : ServerPhase ρ τ :=
  match decodeRequest requests frame with
  | .ok request => .decoded request
  | .error e => respond responses (codecErrorResponse service e)

/-- A turn of the daemon's reader. Where nothing has arrived, it waits, unless nothing will. -/
def serverReads (c : Connection ρ τ) (frame : List UInt8) (n : Nat) : Connection ρ τ :=
  let chunk := chunkOf c.up n
  if chunk.isEmpty then
    if c.client.shutDown then { c with server := .closed (.error (.read .incompleteFrame)) } else c
  else
    let read := { c with up := c.up.drop chunk.length }
    match readChunk ⟨.io, .incompleteFrame, .frameTooLarge, .trailingBytes⟩ frame chunk with
    | .error e => { read with server := .closed (.error (.read e)) }
    | .ok (.more frame) => { read with server := .reading frame }
    | .ok (.complete frame) => { read with server := receive requests responses service frame }

/-- The answer of a task that does not need the service. -/
def answer (i : ι) (c : Connection ρ τ) (d : Daemon ι S α ρ τ) (request : Envelope ρ) (body : τ) :
    Connection ρ τ × Daemon ι S α ρ τ :=
  ({ c with server := respond responses (respondTo request body) },
    { d with log := d.log ++ [⟨i, request, some body, none⟩] })

/-- A decoded request is handed to the service, or a cancellation to the request that it names. -/
def dispatch (i : ι) (c : Connection ρ τ) (d : Daemon ι S α ρ τ) (request : Envelope ρ)
    (alive : Bool) : Connection ρ τ × Daemon ι S α ρ τ :=
  match service.kind request.body with
  | .cancelChat requestId =>
      answer responses i c { d with cancellations := d.cancellations.erase requestId } request
        (service.chatCancellation (d.cancellations.contains requestId && alive))
  | .chat =>
      if d.cancellations.contains request.requestId then
        answer responses i c d request (service.error duplicateRequest)
      else
        ({ c with server := .waiting request },
          { d with cancellations := request.requestId :: d.cancellations })
  | .other => ({ c with server := .waiting request }, d)

/-- What follows the handler. -/
def settle (request : Envelope ρ) : Option τ → ServerPhase ρ τ
  | none => .closed (.error .panicked)
  | some body =>
      match service.kind request.body with
      | .chat => .handled (respondTo request body)
      | _ => respond responses (respondTo request body)

/-- The service handles a request under its lock. -/
def serve (i : ι) (c : Connection ρ τ) (d : Daemon ι S α ρ τ) (request : Envelope ρ) (input : α) :
    Connection ρ τ × Daemon ι S α ρ τ :=
  let handled := service.handle input d.service request
  ({ c with server := settle responses service request handled.1 },
    { d with
      service := handled.2
      log := d.log ++ [⟨i, request, handled.1, some input⟩] })

/-- What an event does to the server's side. -/
def serverMove (i : ι) (c : Connection ρ τ) (d : Daemon ι S α ρ τ) :
    Event α → Connection ρ τ × Daemon ι S α ρ τ
  | .serverReads n =>
      match c.server with
      | .reading frame => (serverReads requests responses service c frame n, d)
      | _ => (c, d)
  | .serverDispatches alive =>
      match c.server with
      | .decoded request => dispatch responses service i c d request alive
      | _ => (c, d)
  | .serviceHandles input =>
      match c.server with
      | .waiting request => serve responses service i c d request input
      | _ => (c, d)
  | .serverCleansUp =>
      match c.server with
      | .handled response => ({ c with server := respond responses response },
          { d with cancellations := d.cancellations.erase response.requestId })
      | _ => (c, d)
  | .serverWrites n =>
      match c.server with
      | .writing rest => ({ c with
          server := .writing (rest.drop (n + 1)), down := c.down ++ rest.take (n + 1) }, d)
      | _ => (c, d)
  | .serverCloses =>
      match c.server with
      | .writing [] => ({ c with server := .closed (.ok ()) }, d)
      | _ => (c, d)
  | .serverGivesUp =>
      match c.server with
      | .reading _ | .writing _ => ({ c with server := .closed (.error .gaveUp) }, d)
      | _ => (c, d)
  | _ => (c, d)

/-! ## The client -/

/-- What a client makes of a whole frame. -/
def acceptResponse (request : Envelope ρ) (frame : List UInt8) : Except RequestError τ := do
  let response ← (decodeResponse responses frame).mapError .protocol
  rejectIf (response.requestId != request.requestId && response.requestId != "request:invalid")
    .requestIdMismatch
  .ok response.body

/-- A turn of the client's reader. -/
def clientReads (request : Envelope ρ) (c : Connection ρ τ) (frame : List UInt8) (n : Nat) :
    Connection ρ τ :=
  let chunk := chunkOf c.down n
  if chunk.isEmpty then
    if c.server.shutDown then { c with client := .finished (.error (.read .incompleteFrame)) }
    else c
  else
    let read := { c with down := c.down.drop chunk.length }
    match readChunk ⟨.io, .incompleteFrame, .frameTooLarge, .trailingBytes⟩ frame chunk with
    | .error e => { read with client := .finished (.error (.read e)) }
    | .ok (.more frame) => { read with client := .reading frame }
    | .ok (.complete frame) =>
        { read with client := .finished (acceptResponse responses request frame) }

/-- The first phase of the other end. -/
def start : Peer ρ → ClientPhase τ
  | .client request =>
      match encodeRequest requests request with
      | .ok bytes => .writing bytes
      | .error e => .finished (.error (.protocol e))
  | .other bytes => .writing bytes

/-- Another program is of no interest once it has sent its bytes. -/
def clientMove (peer : Peer ρ) (c : Connection ρ τ) : Event α → Connection ρ τ
  | .clientWrites n =>
      match c.client with
      | .writing rest =>
          { c with client := .writing (rest.drop (n + 1)), up := c.up ++ rest.take (n + 1) }
      | _ => c
  | .clientShutsDown =>
      match c.client, peer with
      | .writing [], .client _ => { c with client := .reading [] }
      | .writing [], .other _ => { c with client := .finished (.error .gaveUp) }
      | _, _ => c
  | .clientReads n =>
      match c.client, peer with
      | .reading frame, .client request => clientReads responses request c frame n
      | _, _ => c
  | .clientGivesUp =>
      match c.client with
      | .writing _ | .reading _ => { c with client := .finished (.error .gaveUp) }
      | .finished _ => c
  | _ => c

/-! ## The system -/

/-- What an event does to a connection and to the daemon. -/
def move (peers : ι → Peer ρ) (i : ι) (c : Connection ρ τ) (d : Daemon ι S α ρ τ) (e : Event α) :
    Connection ρ τ × Daemon ι S α ρ τ :=
  serverMove requests responses service i (clientMove responses (peers i) c e) d e

/-- Nobody has sent anything. -/
def initial (peers : ι → Peer ρ) (s : S) : Composite ι (Connection ρ τ) (Daemon ι S α ρ τ) where
  component i := ⟨start requests (peers i), .reading [], [], []⟩
  shared := ⟨s, [], []⟩

/-- The system after these events. -/
def reached [DecidableEq ι] (peers : ι → Peer ρ) (s : S) (events : List (ι × Event α)) :
    Composite ι (Connection ρ τ) (Daemon ι S α ρ τ) :=
  run (advance (move requests responses service peers)) (initial requests peers s) events

end

end Halquen.Service.Connections
