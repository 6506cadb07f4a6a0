import Halquen.Service.Connections

/-!
# Safety of the connections

Whatever the order in which clients, other programs and the tasks of the daemon take their steps,
whatever they read and write at a time and wherever they give up: every request is dealt with at
most once and as it was sent, the service handles one request after the other, and a client that
returns a response returns the one that was made for its own request (`connections_safe`).
-/

set_option autoImplicit false

namespace Halquen.Service.ConnectionSafety

open Halquen.Library.Interleaving Halquen.Library.Listing Halquen.Library.Run
open Halquen.Protocol.Frames Halquen.Protocol.Messages
open Halquen.Service.Connections

/-! ## Lines -/

/-- A frame that an encoder makes: one line within the limit. -/
structure Line (bytes : List UInt8) : Prop where
  ends : ∃ payload, bytes = payload ++ [lineFeed] ∧ lineFeed ∉ payload
  size : bytes.length ≤ maxFrameSize

section

variable {β ε : Type} {bytes frame chunk rest : List UInt8}

/-- What is encoded is a line. -/
theorem line_of_encode {serde : Serde (Envelope β)} (hserde : serde.Lawful)
    {envelope : Envelope β} (h : encodeEnvelope serde envelope = .ok bytes) : Line bytes := by
  obtain ⟨-, hsize, rfl⟩ := of_encodeEnvelope h
  refine ⟨⟨_, rfl, hserde.no_line_feed envelope⟩, ?_⟩
  rw [List.length_append, List.length_singleton]
  exact Nat.not_lt.mp hsize

theorem Line.ne_nil (h : Line bytes) : bytes ≠ [] := by
  obtain ⟨payload, rfl, -⟩ := h.ends
  exact List.append_ne_nil_of_right_ne_nil _ (List.cons_ne_nil _ _)

/-- Before a line is complete, no line feed has been read. -/
theorem Line.notMem (h : Line (frame ++ rest)) (hrest : rest ≠ []) : lineFeed ∉ frame := by
  obtain ⟨payload, heq, hpayload⟩ := h.ends
  rcases chunk_cases heq hpayload with ⟨-, hnil⟩ | ⟨payload', -, -, hframe, -⟩
  · exact absurd hnil hrest
  · exact hframe

/-- A chunk completes the line, or the reader goes on. -/
theorem readChunk_line (errors : ReadErrors ε) (h : Line (frame ++ (chunk ++ rest)))
    (hchunk : chunk ≠ []) :
    readChunk errors frame chunk =
      if rest = [] then .ok (.complete (frame ++ chunk)) else .ok (.more (frame ++ chunk)) := by
  have hframe := h.notMem (List.append_ne_nil_of_left_ne_nil hchunk rest)
  have hsize := h.size
  rw [List.length_append, List.length_append] at hsize
  unfold readChunk
  by_cases hrest : rest = []
  · subst hrest
    rw [List.append_nil] at h
    obtain ⟨payload, heq, hpayload⟩ := h.ends
    obtain ⟨payload', rfl, hpayload'⟩ : ∃ payload', chunk = payload' ++ [lineFeed] ∧
        lineFeed ∉ payload' := by
      rcases chunk_cases heq hpayload with ⟨-, hnil⟩ | ⟨payload', -, hchunk', -, hnone⟩
      · exact absurd hnil hchunk
      · exact ⟨payload', hchunk', hnone⟩
    rw [findIdx?_line hpayload', if_pos rfl]
    simp only [List.length_append, List.length_singleton] at hsize ⊢
    rw [if_neg (by omega), if_neg (by simp), List.take_of_length_le (by simp)]
  · have hnone : lineFeed ∉ chunk := by
      rw [← List.append_assoc] at h
      exact fun hmem => h.notMem hrest (List.mem_append_right frame hmem)
    rw [findIdx?_of_not_mem hnone, if_neg hrest]
    dsimp only
    rw [if_neg (by omega)]

/-- A read takes a first part of what has arrived. -/
theorem chunkOf_append (arrived : List UInt8) (n : Nat) :
    chunkOf arrived n ++ arrived.drop (chunkOf arrived n).length = arrived := by
  unfold chunkOf
  rw [List.length_take]
  rcases Nat.le_total (min (n + 1) 1024) arrived.length with hle | hle
  · rw [Nat.min_eq_left hle, List.take_append_drop]
  · rw [Nat.min_eq_right hle, List.drop_length, List.append_nil, List.take_of_length_le hle]

theorem chunkOf_eq_nil {arrived : List UInt8} {n : Nat} (h : (chunkOf arrived n).isEmpty = true) :
    arrived = [] := by
  unfold chunkOf at h
  rw [List.isEmpty_iff, List.take_eq_nil_iff] at h
  rcases h with h | h
  · omega
  · exact h

end

/-! ## What is recorded -/

section

variable {ι S α ρ τ : Type}

/-- What the service has become after a request. -/
def replay (service : HalquenService S α ρ τ) (s : S) (entry : Entry ι α ρ τ) : S :=
  match entry.input with
  | none => s
  | some input => (service.handle input s entry.request).2

/-- The service has handled the requests of the log one after the other, in this order. -/
structure Sequential (service : HalquenService S α ρ τ) (s₀ : S) (log : List (Entry ι α ρ τ))
    (s : S) : Prop where
  body : ∀ before entry after input, log = before ++ entry :: after → entry.input = some input →
    entry.body = (service.handle input (run (replay service) s₀ before) entry.request).1
  state : s = run (replay service) s₀ log

/-- The request of this connection was dealt with, with this result. -/
def Dealt (i : ι) (request : Envelope ρ) (log : List (Entry ι α ρ τ)) (body : Option τ) : Prop :=
  ∃ entry ∈ log, entry.connection = i ∧ entry.request = request ∧ entry.body = body

/-- The log says that the request was handled and answered so. -/
def Answered (i : ι) (request : Envelope ρ) (log : List (Entry ι α ρ τ)) (body : τ) : Prop :=
  Dealt i request log (some body)

/-- The log says nothing of the connection. -/
def Unanswered (i : ι) (log : List (Entry ι α ρ τ)) : Prop := ∀ entry ∈ log, entry.connection ≠ i

/-- Steps of one connection add to the log what they have dealt with. -/
def Adds (i : ι) (d d' : Daemon ι S α ρ τ) : Prop :=
  ∃ entries, d'.log = d.log ++ entries ∧ ∀ entry ∈ entries, entry.connection = i

/-- One more request is handled after the others. -/
theorem Sequential.concat {service : HalquenService S α ρ τ} {s₀ s : S}
    {log : List (Entry ι α ρ τ)} (h : Sequential service s₀ log s) (entry : Entry ι α ρ τ)
    (hbody : ∀ input, entry.input = some input →
      entry.body = (service.handle input s entry.request).1) :
    Sequential service s₀ (log ++ [entry]) (replay service s entry) where
  body := by
    intro before e after input heq hinput
    rcases List.append_eq_append_iff.mp heq with ⟨gap, hbefore, hlast⟩ | ⟨gap, hlog, hrest⟩
    · -- The new entry, which everything else precedes.
      cases gap with
      | nil =>
          rw [List.nil_append] at hlast
          obtain ⟨rfl, -⟩ := List.cons.inj hlast
          rw [List.append_nil] at hbefore
          rw [hbefore, ← h.state]
          exact hbody input hinput
      | cons first gap =>
          have hlength := congrArg List.length hlast
          simp at hlength
    · cases gap with
      | nil =>
          rw [List.nil_append] at hrest
          obtain ⟨rfl, -⟩ := List.cons.inj hrest
          rw [List.append_nil] at hlog
          rw [← hlog, ← h.state]
          exact hbody input hinput
      | cons first gap =>
          obtain ⟨rfl, hafter⟩ := List.cons.inj hrest
          exact h.body before e gap input hlog hinput
  state := by
    rw [run_append, ← h.state]
    rfl

/-- What other connections add to the log leaves the entries of this one. -/
theorem Dealt.adds {i j : ι} {request : Envelope ρ} {body : Option τ} {d d' : Daemon ι S α ρ τ}
    (hadds : Adds i d d') (h : Dealt j request d.log body) : Dealt j request d'.log body := by
  obtain ⟨entries, heq, -⟩ := hadds
  obtain ⟨entry, hentry, hof⟩ := h
  exact ⟨entry, heq ▸ List.mem_append_left _ hentry, hof⟩

end

/-! ## Conditions of a connection -/

/-- The request of this connection is still to be dealt with. -/
def Open {ρ τ : Type} : ServerPhase ρ τ → Prop
  | .reading _ | .decoded _ | .waiting _ => True
  | _ => False

/-- What a client has of its response, as long as it is after one. -/
def received {τ : Type} : ClientPhase τ → Option (List UInt8)
  | .writing _ => some []
  | .reading frame => some frame
  | .finished _ => none

section

variable {ι S α ρ τ : Type} (requests : Serde (Envelope ρ)) (responses : Serde (Envelope τ))
  (service : HalquenService S α ρ τ) (peers : ι → Peer ρ)

/-- The response that is on its way to a client: what the client has, what is under way and what is
still to be written are the encoding of an answer to its request. -/
def Incoming (i : ι) (request : Envelope ρ) (log : List (Entry ι α ρ τ)) (server : ServerPhase ρ τ)
    (frame down : List UInt8) : Prop :=
  (frame = [] ∧ down = [] ∧ ∀ left, server ≠ .writing left) ∨
    ∃ body bytes rest, Answered i request log body ∧
      encodeResponse responses (respondTo request body) = .ok bytes ∧
      frame ++ (down ++ rest) = bytes ∧ down ++ rest ≠ [] ∧
      (server = .writing rest ∨ ∃ result, server = .closed result)

/-- The connection of a client whose request is encoded as `line`. -/
structure Faithful (i : ι) (request : Envelope ρ) (line : List UInt8) (c : Connection ρ τ)
    (log : List (Entry ι α ρ τ)) : Prop where
  entries : ∀ entry ∈ log, entry.connection = i → entry.request = request
  outgoing : ∀ frame, c.server = .reading frame → ∃ rest, frame ++ (c.up ++ rest) = line ∧
    c.up ++ rest ≠ [] ∧ ∀ left, c.client = .writing left → left = rest
  held : ∀ r, c.server = .decoded r ∨ c.server = .waiting r → r = request
  handled : ∀ response, c.server = .handled response →
    ∃ body, Answered i request log body ∧ response = respondTo request body
  incoming : ∀ frame, received c.client = some frame →
    Incoming responses i request log c.server frame c.down
  finished : ∀ body, c.client = .finished (.ok body) → Answered i request log body

/-- A client whose request cannot be encoded sends nothing. -/
structure Refused (i : ι) (error : CodecError) (c : Connection ρ τ) (log : List (Entry ι α ρ τ)) :
    Prop where
  client : c.client = .finished (.error (.protocol error))
  up : c.up = []
  server : c.server = .reading [] ∨ ∃ result, c.server = .closed result
  unanswered : Unanswered i log

/-- What holds of every connection. -/
structure Sound (i : ι) (c : Connection ρ τ) (d : Daemon ι S α ρ τ) : Prop where
  pending : Open c.server → Unanswered i d.log
  faithful : ∀ request line, peers i = .client request →
    encodeRequest requests request = .ok line → Faithful responses i request line c d.log
  refused : ∀ request error, peers i = .client request →
    encodeRequest requests request = .error error → Refused i error c d.log

/-- What holds of the daemon. -/
structure Ordered (s₀ : S) (d : Daemon ι S α ρ τ) : Prop where
  sequential : Sequential service s₀ d.log d.service
  once : (d.log.map Entry.connection).Nodup

variable {requests responses service peers} {i j : ι} {c : Connection ρ τ} {d d' : Daemon ι S α ρ τ}
  {request : Envelope ρ} {line frame : List UInt8}

theorem Incoming.adds {server : ServerPhase ρ τ} {down : List UInt8} (hadds : Adds i d d')
    (h : Incoming responses j request d.log server frame down) :
    Incoming responses j request d'.log server frame down := by
  rcases h with hnone | ⟨body, bytes, rest, hanswered, hrest⟩
  · exact .inl hnone
  · exact .inr ⟨body, bytes, rest, Dealt.adds hadds hanswered, hrest⟩

/-- Nor do they answer it. -/
theorem unanswered_adds (hij : i ≠ j) (hadds : Adds i d d') (h : Unanswered j d.log) :
    Unanswered j d'.log := by
  obtain ⟨entries, heq, hentries⟩ := hadds
  intro entry hentry hj
  rw [heq, List.mem_append] at hentry
  rcases hentry with hold | hnew
  · exact h entry hold hj
  · exact hij ((hentries entry hnew).symm.trans hj)

/-- What other connections add does not concern this one. -/
theorem Sound.adds (hij : i ≠ j) (hadds : Adds i d d') (h : Sound requests responses peers j c d) :
    Sound requests responses peers j c d' where
  pending hopen := unanswered_adds hij hadds (h.pending hopen)
  faithful request line hpeer hline := by
    have hfaithful := h.faithful request line hpeer hline
    obtain ⟨entries, heq, hentries⟩ := hadds
    have hadds : Adds i d d' := ⟨entries, heq, hentries⟩
    refine ⟨?_, hfaithful.outgoing, hfaithful.held, ?_, ?_, ?_⟩
    · intro entry hentry hj
      rw [heq, List.mem_append] at hentry
      rcases hentry with hold | hnew
      · exact hfaithful.entries entry hold hj
      · exact absurd ((hentries entry hnew).symm.trans hj) hij
    · intro response hresponse
      obtain ⟨body, hanswered, hof⟩ := hfaithful.handled response hresponse
      exact ⟨body, Dealt.adds hadds hanswered, hof⟩
    · exact fun frame hframe => (hfaithful.incoming frame hframe).adds hadds
    · exact fun body hbody => Dealt.adds hadds (hfaithful.finished body hbody)
  refused request error hpeer herror := by
    have hrefused := h.refused request error hpeer herror
    exact ⟨hrefused.client, hrefused.up, hrefused.server,
      unanswered_adds hij hadds hrefused.unanswered⟩

/-! ## Steps of a client -/

variable {log : List (Entry ι α ρ τ)}

/-- A move of the client leaves the server. -/
theorem clientMove_server (responses : Serde (Envelope τ)) (peer : Peer ρ) (c : Connection ρ τ)
    (e : Event α) : (clientMove responses peer c e).server = c.server := by
  cases e with
  | clientWrites n => unfold clientMove; dsimp only; split <;> rfl
  | clientShutsDown => unfold clientMove; dsimp only; split <;> rfl
  | clientReads n =>
      unfold clientMove
      dsimp only
      split
      · unfold clientReads
        dsimp only
        split
        · split <;> rfl
        · split <;> rfl
      · rfl
  | clientGivesUp => unfold clientMove; dsimp only; split <;> rfl
  | _ => rfl

/-- A client accepts what the daemon has made of its request. -/
theorem acceptResponse_of_encode (hresponses : responses.Lawful) {body : τ} {bytes : List UInt8}
    (h : encodeResponse responses (respondTo request body) = .ok bytes) :
    acceptResponse responses request bytes = .ok body := by
  have hdecode : decodeResponse responses bytes = .ok (respondTo request body) :=
    decodeEnvelope_encodeEnvelope hresponses h
  unfold acceptResponse
  rw [hdecode]
  simp [Except.mapError, respondTo, rejectIf, bind, Except.bind]

/-- What is known of the bytes under way does not depend on a client that writes no more. -/
theorem Faithful.outgoing_silent (h : Faithful responses i request line c log)
    {client : ClientPhase τ} (hclient : ∀ left, client ≠ .writing left) :
    ∀ frame, c.server = .reading frame → ∃ rest, frame ++ (c.up ++ rest) = line ∧
      c.up ++ rest ≠ [] ∧ ∀ left, client = .writing left → left = rest := by
  intro frame hserver
  obtain ⟨rest, heq, hne, -⟩ := h.outgoing frame hserver
  exact ⟨rest, heq, hne, fun left hleft => absurd hleft (hclient left)⟩

/-- A turn of the client's reader. -/
theorem Faithful.clientReads (hresponses : responses.Lawful)
    (h : Faithful responses i request line c log) (hclient : c.client = .reading frame) (n : Nat) :
    Faithful responses i request line (clientReads responses request c frame n) log := by
  have hincoming := h.incoming frame (by rw [hclient]; rfl)
  unfold Connections.clientReads
  dsimp only
  by_cases hempty : (chunkOf c.down n).isEmpty = true
  · rw [if_pos hempty]
    -- Nothing to read: the stream has ended, or the client waits.
    by_cases hshut : c.server.shutDown = true
    · rw [if_pos hshut]
      exact ⟨h.entries, h.outgoing_silent (by simp), h.held, h.handled,
        by simp [received], by simp⟩
    · rw [if_neg hshut]
      exact h
  · rw [if_neg hempty]
    rcases hincoming with ⟨-, hdown, -⟩ | ⟨body, bytes, rest, hanswered, hencode, heq, hne, hserver⟩
    · rw [hdown] at hempty
      exact absurd (by simp [chunkOf]) hempty
    · have hsplit := chunkOf_append c.down n
      have hchunk : chunkOf c.down n ≠ [] := fun hnil => hempty (List.isEmpty_iff.mpr hnil)
      have hline := line_of_encode hresponses hencode
      generalize chunkOf c.down n = chunk at *
      rw [← heq, ← hsplit, List.append_assoc] at hline
      rw [readChunk_line _ hline hchunk]
      -- The rest of the response, or a part of it.
      by_cases hlast : c.down.drop chunk.length ++ rest = []
      · rw [if_pos hlast]
        have hbytes : frame ++ chunk = bytes := by
          rw [← heq, ← hsplit, List.append_assoc, hlast, List.append_nil]
        rw [hbytes]
        dsimp only
        rw [acceptResponse_of_encode hresponses hencode]
        refine ⟨h.entries, h.outgoing_silent (by simp), h.held, h.handled, by simp [received], ?_⟩
        intro body' hbody'
        cases hbody'
        exact hanswered
      · rw [if_neg hlast]
        refine ⟨h.entries, h.outgoing_silent (by simp), h.held, h.handled, ?_, by simp⟩
        intro frame' hframe'
        cases hframe'
        refine .inr ⟨body, bytes, rest, hanswered, hencode, ?_, hlast, hserver⟩
        rw [← heq, ← hsplit]
        simp

/-- A move of the client keeps the connection faithful. -/
theorem Faithful.clientMove (hresponses : responses.Lawful)
    (h : Faithful responses i request line c log) (e : Event α) :
    Faithful responses i request line (clientMove responses (.client request) c e) log := by
  unfold Connections.clientMove
  cases e with
  | clientWrites n =>
      dsimp only
      split
      · next rest hclient =>
          have hincoming := h.incoming [] (by rw [hclient]; rfl)
          refine ⟨h.entries, ?_, h.held, h.handled, ?_, by simp⟩
          · intro frame hserver
            -- What the task has read, what is in the pipe and what is left make up the request.
            obtain ⟨rest', heq, hne, hleft⟩ := h.outgoing frame hserver
            cases hleft rest hclient
            refine ⟨rest.drop (n + 1), ?_, ?_, ?_⟩
            · rw [List.append_assoc, List.take_append_drop]
              exact heq
            · rw [List.append_assoc, List.take_append_drop]
              exact hne
            · intro left hleft
              cases hleft
              rfl
          · intro frame hframe
            cases hframe
            exact hincoming
      · exact h
  | clientShutsDown =>
      dsimp only
      split
      · next hclient _ =>
          have hincoming := h.incoming [] (by rw [hclient]; rfl)
          refine ⟨h.entries, h.outgoing_silent (by simp), h.held, h.handled, ?_, by simp⟩
          intro frame hframe
          cases hframe
          exact hincoming
      · next hpeer => cases hpeer
      · exact h
  | clientReads n =>
      dsimp only
      split
      · next frame request' hclient hpeer =>
          cases hpeer
          exact h.clientReads hresponses hclient n
      · exact h
  | clientGivesUp =>
      dsimp only
      split
      · exact ⟨h.entries, h.outgoing_silent (by simp), h.held, h.handled, by simp [received],
          by simp⟩
      · exact ⟨h.entries, h.outgoing_silent (by simp), h.held, h.handled, by simp [received],
          by simp⟩
      · exact h
  | _ => exact h

/-- A request that was not sent stays so. -/
theorem Refused.clientMove {error : CodecError} (h : Refused i error c log) (peer : Peer ρ)
    (e : Event α) : Refused i error (clientMove responses peer c e) log := by
  have hstill : Connections.clientMove responses peer c e = c := by
    unfold Connections.clientMove
    cases e <;> simp [h.client]
  rw [hstill]
  exact h

/-! ## Steps of the daemon -/

/-- A response is written if it can be encoded. -/
theorem respond_cases (responses : Serde (Envelope τ)) (response : Envelope τ) :
    (∃ bytes, encodeResponse responses response = .ok bytes ∧
      (respond responses response : ServerPhase ρ τ) = .writing bytes) ∨
    ∃ error, encodeResponse responses response = .error error ∧
      (respond responses response : ServerPhase ρ τ) = .closed (.error (.protocol error)) := by
  unfold respond
  cases hencode : encodeResponse responses response with
  | ok bytes => exact .inl ⟨bytes, rfl, rfl⟩
  | error error => exact .inr ⟨error, rfl, rfl⟩

theorem not_open_respond (response : Envelope τ) :
    ¬ Open (respond responses response : ServerPhase ρ τ) := by
  rcases respond_cases (ρ := ρ) responses response with ⟨bytes, -, h⟩ | ⟨error, -, h⟩
  · rw [h]
    exact id
  · rw [h]
    exact id

theorem not_open_settle (responses : Serde (Envelope τ)) (service : HalquenService S α ρ τ)
    (request : Envelope ρ) (body : Option τ) :
    ¬ Open (settle responses service request body) := by
  cases body with
  | none => exact id
  | some body =>
      unfold settle
      dsimp only
      split
      · exact id
      · exact not_open_respond _

theorem encode_ne_nil (hresponses : responses.Lawful) {response : Envelope τ}
    {bytes : List UInt8} (h : encodeResponse responses response = .ok bytes) : bytes ≠ [] :=
  (line_of_encode hresponses h).ne_nil

/-- Before the response is written, nothing of it is under way. -/
theorem Faithful.quiet (h : Faithful responses i request line c log)
    (hwriting : ∀ rest, c.server ≠ .writing rest) (hclosed : ∀ result, c.server ≠ .closed result) :
    ∀ frame, received c.client = some frame → frame = [] ∧ c.down = [] := by
  intro frame hframe
  rcases h.incoming frame hframe with ⟨hnil, hdown, -⟩ | ⟨_, _, rest, -, -, -, -, hserver⟩
  · exact ⟨hnil, hdown⟩
  · rcases hserver with hserver | ⟨result, hserver⟩
    · exact absurd hserver (hwriting rest)
    · exact absurd hserver (hclosed result)

/-- When the request is dealt with, its answer is kept or goes out, or the task ends. -/
theorem Faithful.settled (hresponses : responses.Lawful)
    (h : Faithful responses i request line c log)
    (hquiet : ∀ frame, received c.client = some frame → frame = [] ∧ c.down = [])
    {log' : List (Entry ι α ρ τ)} (hlog : ∀ entry ∈ log', entry ∈ log ∨ entry.request = request)
    (hmono : ∀ entry ∈ log, entry ∈ log') {server : ServerPhase ρ τ}
    (hserver : (∃ body, Answered i request log' body ∧
        (server = respond responses (respondTo request body) ∨
          server = .handled (respondTo request body))) ∨ ∃ result, server = .closed result) :
    Faithful responses i request line { c with server := server } log' := by
  have hentries : ∀ entry ∈ log', entry.connection = i → entry.request = request := by
    intro entry hentry hi
    rcases hlog entry hentry with hold | hof
    · exact h.entries entry hold hi
    · exact hof
  have hfinished : ∀ body, c.client = .finished (.ok body) → Answered i request log' body := by
    intro body hbody
    obtain ⟨entry, hentry, hof⟩ := h.finished body hbody
    exact ⟨entry, hmono entry hentry, hof⟩
  -- A task that does not write has sent nothing.
  have hnone : (∀ left, server ≠ .writing left) → ∀ frame, received c.client = some frame →
      Incoming responses i request log' server frame c.down := by
    intro hnot frame hframe
    obtain ⟨hnil, hdown⟩ := hquiet frame hframe
    exact .inl ⟨hnil, hdown, hnot⟩
  -- The response is being written, or it is made, or the connection is closed.
  rcases hserver with ⟨body, hanswered, hrespond | hhandled⟩ | ⟨result, hclosed⟩
  · rcases respond_cases (ρ := ρ) responses (respondTo request body) with
      ⟨bytes, hencode, hwriting⟩ | ⟨error, -, hclosed⟩
    · rw [hwriting] at hrespond
      subst hrespond
      refine ⟨hentries, by simp, by simp, by simp, ?_, hfinished⟩
      intro frame hframe
      obtain ⟨hnil, hdown⟩ := hquiet frame hframe
      refine .inr ⟨body, bytes, bytes, hanswered, hencode, ?_, ?_, .inl rfl⟩
      · rw [hnil, hdown, List.nil_append, List.nil_append]
      · rw [hdown, List.nil_append]
        exact encode_ne_nil hresponses hencode
    · rw [hclosed] at hrespond
      subst hrespond
      exact ⟨hentries, by simp, by simp, by simp, hnone (by simp), hfinished⟩
  · subst hhandled
    refine ⟨hentries, by simp, by simp, ?_, hnone (by simp), hfinished⟩
    intro response hresponse
    cases hresponse
    exact ⟨body, hanswered, rfl⟩
  · subst hclosed
    exact ⟨hentries, by simp, by simp, by simp, hnone (by simp), hfinished⟩

/-- The daemon decodes the request that the client has encoded. -/
theorem receive_of_encode (hrequests : requests.Lawful)
    (h : encodeRequest requests request = .ok line) :
    receive requests responses service line = .decoded request := by
  have hdecode : decodeRequest requests line = .ok request :=
    decodeEnvelope_encodeEnvelope hrequests h
  unfold receive
  rw [hdecode]

/-- A turn of the daemon's reader. -/
theorem Faithful.serverReads (hrequests : requests.Lawful) (hresponses : responses.Lawful)
    (hline : encodeRequest requests request = .ok line)
    (h : Faithful responses i request line c log) (hserver : c.server = .reading frame) (n : Nat) :
    Faithful responses i request line (serverReads requests responses service c frame n) log := by
  have hquiet := h.quiet (by simp [hserver]) (by simp [hserver])
  obtain ⟨rest, heq, hne, hleft⟩ := h.outgoing frame hserver
  unfold Connections.serverReads
  dsimp only
  by_cases hempty : (chunkOf c.up n).isEmpty = true
  · rw [if_pos hempty]
    split
    · exact h.settled hresponses hquiet (fun entry hentry => .inl hentry) (fun _ => id)
        (.inr ⟨_, rfl⟩)
    · exact h
  · rw [if_neg hempty]
    have hsplit := chunkOf_append c.up n
    have hchunk : chunkOf c.up n ≠ [] := fun hnil => hempty (List.isEmpty_iff.mpr hnil)
    generalize chunkOf c.up n = chunk at *
    -- What was read and what is still to come make up the request.
    have hparts : frame ++ (chunk ++ (c.up.drop chunk.length ++ rest)) = line := by
      rw [← heq, ← hsplit]
      simp
    rw [readChunk_line _ (hparts ▸ line_of_encode hrequests hline) hchunk]
    by_cases hlast : c.up.drop chunk.length ++ rest = []
    · rw [if_pos hlast]
      have hframe : frame ++ chunk = line := by
        rw [← hparts, hlast, List.append_nil]
      rw [hframe]
      dsimp only
      rw [receive_of_encode hrequests hline]
      refine ⟨h.entries, by simp, ?_, by simp, ?_, h.finished⟩
      · intro r hr
        rcases hr with hr | hr
        · cases hr
          rfl
        · cases hr
      · intro frame' hframe'
        obtain ⟨hnil, hdown⟩ := hquiet frame' hframe'
        exact .inl ⟨hnil, hdown, by simp⟩
    · rw [if_neg hlast]
      refine ⟨h.entries, ?_, by simp, by simp, ?_, h.finished⟩
      · intro frame' hframe'
        cases hframe'
        exact ⟨rest, by rw [List.append_assoc]; exact hparts, hlast, hleft⟩
      · intro frame' hframe'
        obtain ⟨hnil, hdown⟩ := hquiet frame' hframe'
        exact .inl ⟨hnil, hdown, by simp⟩

theorem answered_concat (i : ι) (request : Envelope ρ) (body : τ) (input : Option α)
    (log : List (Entry ι α ρ τ)) :
    Answered i request (log ++ [⟨i, request, some body, input⟩]) body :=
  ⟨⟨i, request, some body, input⟩, by simp, rfl, rfl, rfl⟩

/-- The daemon answers on its own. -/
theorem Faithful.answer (hresponses : responses.Lawful)
    (h : Faithful responses i request line c d.log) (hserver : c.server = .decoded request)
    (body : τ) :
    Faithful responses i request line (answer responses i c d request body).1
      (answer responses i c d request body).2.log :=
  h.settled hresponses (h.quiet (by simp [hserver]) (by simp [hserver]))
    (by
      intro entry hentry
      rcases List.mem_append.mp hentry with hold | hnew
      · exact .inl hold
      · rw [List.mem_singleton.mp hnew]
        exact .inr rfl)
    (fun entry hentry => List.mem_append_left _ hentry)
    (.inl ⟨body, answered_concat i request body none d.log, .inl rfl⟩)

/-- A request that waits for the service. -/
theorem Faithful.waiting (h : Faithful responses i request line c log)
    (hserver : c.server = .decoded request) :
    Faithful responses i request line { c with server := .waiting request } log where
  entries := h.entries
  outgoing := by simp
  held := by
    intro r hr
    rcases hr with hr | hr
    · cases hr
    · cases hr
      rfl
  handled := by simp
  incoming := by
    intro frame hframe
    obtain ⟨hnil, hdown⟩ := h.quiet (by simp [hserver]) (by simp [hserver]) frame hframe
    exact .inl ⟨hnil, hdown, by simp⟩
  finished := h.finished

/-- So does the dispatch of its request. -/
theorem Faithful.dispatch (hresponses : responses.Lawful)
    (h : Faithful responses i request line c d.log) (hserver : c.server = .decoded request)
    (alive : Bool) :
    Faithful responses i request line (dispatch responses service i c d request alive).1
      (dispatch responses service i c d request alive).2.log := by
  unfold Connections.dispatch
  split
  · next id _ =>
      exact Faithful.answer hresponses
        (d := { d with cancellations := d.cancellations.erase id }) h hserver _
  · split
    · exact h.answer hresponses hserver _
    · exact h.waiting hserver
  · exact h.waiting hserver

/-- The service handles the request. -/
theorem Faithful.serve (hresponses : responses.Lawful)
    (h : Faithful responses i request line c d.log) (hserver : c.server = .waiting request)
    (input : α) :
    Faithful responses i request line (serve responses service i c d request input).1
      (serve responses service i c d request input).2.log := by
  unfold Connections.serve
  generalize service.handle input d.service request = handled
  refine h.settled hresponses (h.quiet (by simp [hserver]) (by simp [hserver])) ?_
    (fun entry hentry => List.mem_append_left _ hentry) ?_
  · intro entry hentry
    rcases List.mem_append.mp hentry with hold | hnew
    · exact .inl hold
    · rw [List.mem_singleton.mp hnew]
      exact .inr rfl
  · cases hbody : handled.1 with
    | none => exact .inr ⟨_, rfl⟩
    | some body =>
        refine .inl ⟨body, answered_concat i request body (some input) d.log, ?_⟩
        unfold settle
        dsimp only
        split
        · exact .inr rfl
        · exact .inl rfl

/-- Part of the response is written. -/
theorem Faithful.serverWrites (h : Faithful responses i request line c log) {left : List UInt8}
    (hserver : c.server = .writing left) (n : Nat) :
    Faithful responses i request line
      { c with server := .writing (left.drop n), down := c.down ++ left.take n } log where
  entries := h.entries
  outgoing := by simp
  held := by simp
  handled := by simp
  incoming := by
    intro frame hframe
    rcases h.incoming frame hframe with ⟨-, -, hnot⟩ | ⟨body, bytes, rest, hanswered, hencode, heq,
      hne, hstate⟩
    · exact absurd hserver (hnot left)
    · rcases hstate with hstate | ⟨result, hstate⟩
      · rw [hserver] at hstate
        cases hstate
        refine .inr ⟨body, bytes, left.drop n, hanswered, hencode, ?_, ?_, .inl rfl⟩
        · rw [List.append_assoc, List.take_append_drop]
          exact heq
        · rw [List.append_assoc, List.take_append_drop]
          exact hne
      · rw [hserver] at hstate
        cases hstate
  finished := h.finished

/-- The task ends, and what it has sent stays under way. -/
theorem Faithful.closes (h : Faithful responses i request line c log)
    (result : Except ConnectionError Unit) :
    Faithful responses i request line { c with server := .closed result } log where
  entries := h.entries
  outgoing := by simp
  held := by simp
  handled := by simp
  incoming := by
    intro frame hframe
    rcases h.incoming frame hframe with ⟨hnil, hdown, -⟩ | ⟨body, bytes, rest, hanswered, hencode,
      heq, hne, -⟩
    · exact .inl ⟨hnil, hdown, by simp⟩
    · exact .inr ⟨body, bytes, rest, hanswered, hencode, heq, hne, .inr ⟨result, rfl⟩⟩
  finished := h.finished

/-- So does a move of the server. -/
theorem Faithful.serverMove (hrequests : requests.Lawful) (hresponses : responses.Lawful)
    (hline : encodeRequest requests request = .ok line)
    (h : Faithful responses i request line c d.log) (e : Event α) :
    Faithful responses i request line (serverMove requests responses service i c d e).1
      (serverMove requests responses service i c d e).2.log := by
  unfold Connections.serverMove
  cases e with
  | serverReads n =>
      dsimp only
      split
      · next frame hserver => exact h.serverReads hrequests hresponses hline hserver n
      · exact h
  | serverDispatches alive =>
      dsimp only
      split
      · next r hserver =>
          cases h.held r (.inl hserver)
          exact h.dispatch hresponses hserver alive
      · exact h
  | serviceHandles input =>
      dsimp only
      split
      · next r hserver =>
          cases h.held r (.inr hserver)
          exact h.serve hresponses hserver input
      · exact h
  | serverCleansUp =>
      dsimp only
      split
      · next response hserver =>
          obtain ⟨body, hanswered, hof⟩ := h.handled response hserver
          exact h.settled hresponses (h.quiet (by simp [hserver]) (by simp [hserver]))
            (fun entry hentry => .inl hentry) (fun _ => id)
            (.inl ⟨body, hanswered, .inl (by rw [hof])⟩)
      · exact h
  | serverWrites n =>
      dsimp only
      split
      · next left hserver => exact h.serverWrites hserver (n + 1)
      · exact h
  | serverCloses =>
      dsimp only
      split
      · exact h.closes _
      · exact h
  | serverGivesUp =>
      dsimp only
      split
      · exact h.closes _
      · exact h.closes _
      · exact h
  | _ => exact h

/-- The daemon hears nothing from a client that sends nothing. -/
theorem Refused.serverMove {error : CodecError} (h : Refused i error c d.log) (e : Event α) :
    Refused i error (serverMove requests responses service i c d e).1
      (serverMove requests responses service i c d e).2.log := by
  have hshut : c.client.shutDown = true := by
    rw [h.client]
    rfl
  have hclosed : ∀ result, Refused i error { c with server := .closed result } d.log :=
    fun result => ⟨h.client, h.up, .inr ⟨result, rfl⟩, h.unanswered⟩
  unfold Connections.serverMove
  rcases h.server with hserver | ⟨result, hserver⟩
  · rw [hserver]
    cases e with
    | serverReads n =>
        dsimp only
        unfold Connections.serverReads
        dsimp only
        rw [if_pos (by simp [h.up, chunkOf]), if_pos hshut]
        exact hclosed _
    | serverGivesUp => exact hclosed _
    | _ => exact h
  · rw [hserver]
    cases e <;> exact h

/-- What a task does to what all share: nothing that is recorded, or it deals with the request of
its connection. -/
def Shares (service : HalquenService S α ρ τ) (i : ι) (c : Connection ρ τ) (d : Daemon ι S α ρ τ)
    (next : Connection ρ τ × Daemon ι S α ρ τ) : Prop :=
  (next.2.log = d.log ∧ next.2.service = d.service ∧ (Open next.1.server → Open c.server)) ∨
  (Open c.server ∧ ¬ Open next.1.server ∧
    ∃ entry, next.2.log = d.log ++ [entry] ∧ entry.connection = i ∧
      next.2.service = replay service d.service entry ∧
      ∀ input, entry.input = some input →
        entry.body = (service.handle input d.service entry.request).1)

/-- A cancellation and a repeated request are answered at once, which is recorded. -/
theorem shares_dispatch (responses : Serde (Envelope τ)) (service : HalquenService S α ρ τ) (i : ι)
    {c : Connection ρ τ} (d : Daemon ι S α ρ τ) {request : Envelope ρ}
    (hserver : c.server = .decoded request) (alive : Bool) :
    Shares service i c d (dispatch responses service i c d request alive) := by
  have hopen : Open c.server := by
    rw [hserver]
    trivial
  unfold dispatch answer
  split
  · exact .inr ⟨hopen, not_open_respond _, _, rfl, rfl, rfl, by simp⟩
  · split
    · exact .inr ⟨hopen, not_open_respond _, _, rfl, rfl, rfl, by simp⟩
    · exact .inl ⟨rfl, rfl, fun _ => hopen⟩
  · exact .inl ⟨rfl, rfl, fun _ => hopen⟩

/-- What the handler does to the service is recorded with the input and the answer. -/
theorem shares_serve (responses : Serde (Envelope τ)) (service : HalquenService S α ρ τ) (i : ι)
    {c : Connection ρ τ} (d : Daemon ι S α ρ τ) {request : Envelope ρ}
    (hserver : c.server = .waiting request) (input : α) :
    Shares service i c d (serve responses service i c d request input) := by
  have hopen : Open c.server := by
    rw [hserver]
    trivial
  refine .inr ⟨hopen, not_open_settle responses service request _, _, rfl, rfl, rfl, ?_⟩
  intro input' hinput
  cases hinput
  rfl

/-- Every step of a task is of this kind. -/
theorem serverMove_daemon (requests : Serde (Envelope ρ)) (responses : Serde (Envelope τ))
    (service : HalquenService S α ρ τ) (i : ι) (c : Connection ρ τ) (d : Daemon ι S α ρ τ)
    (e : Event α) :
    Shares service i c d (serverMove requests responses service i c d e) := by
  unfold serverMove
  cases e with
  | serverReads n =>
      dsimp only
      split
      · next frame hserver => exact .inl ⟨rfl, rfl, fun _ => by rw [hserver]; trivial⟩
      · exact .inl ⟨rfl, rfl, id⟩
  | serverDispatches alive =>
      dsimp only
      split
      · next r hserver => exact shares_dispatch responses service i d hserver alive
      · exact .inl ⟨rfl, rfl, id⟩
  | serviceHandles input =>
      dsimp only
      split
      · next r hserver => exact shares_serve responses service i d hserver input
      · exact .inl ⟨rfl, rfl, id⟩
  | serverCleansUp =>
      dsimp only
      split
      · exact .inl ⟨rfl, rfl, fun hopen => absurd hopen (not_open_respond _)⟩
      · exact .inl ⟨rfl, rfl, id⟩
  | serverWrites n =>
      dsimp only
      split
      · exact .inl ⟨rfl, rfl, False.elim⟩
      · exact .inl ⟨rfl, rfl, id⟩
  | serverCloses =>
      dsimp only
      split
      · exact .inl ⟨rfl, rfl, False.elim⟩
      · exact .inl ⟨rfl, rfl, id⟩
  | serverGivesUp =>
      dsimp only
      split
      · exact .inl ⟨rfl, rfl, False.elim⟩
      · exact .inl ⟨rfl, rfl, False.elim⟩
      · exact .inl ⟨rfl, rfl, id⟩
  | _ => exact .inl ⟨rfl, rfl, id⟩

/-! ## Runs -/

/-- A connection adds its own entries only. -/
theorem adds_serverMove (e : Event α) :
    Adds i d (serverMove requests responses service i c d e).2 := by
  rcases serverMove_daemon requests responses service i c d e with
    ⟨hlog, -, -⟩ | ⟨-, -, entry, hlog, hentry, -, -⟩
  · exact ⟨[], by rw [hlog, List.append_nil], by simp⟩
  · refine ⟨[entry], hlog, ?_⟩
    intro e' he'
    rw [List.mem_singleton.mp he']
    exact hentry

/-- So every move keeps it sound. -/
theorem Sound.move (hrequests : requests.Lawful) (hresponses : responses.Lawful)
    (h : Sound requests responses peers i c d) (e : Event α) :
    Sound requests responses peers i (move requests responses service peers i c d e).1
      (move requests responses service peers i c d e).2 where
  pending := by
    unfold Connections.move
    have hserver := clientMove_server responses (peers i) c e
    rcases serverMove_daemon requests responses service i
      (Connections.clientMove responses (peers i) c e) d e with
      ⟨hlog, -, hopen⟩ | ⟨-, hnot, -⟩
    · intro hopen'
      rw [hlog]
      exact h.pending (hserver ▸ hopen hopen')
    · exact fun hopen' => absurd hopen' hnot
  faithful := by
    intro request line hpeer hline
    unfold Connections.move
    rw [hpeer]
    exact ((h.faithful request line hpeer hline).clientMove hresponses e).serverMove hrequests
      hresponses hline e
  refused := by
    intro request error hpeer herror
    exact ((h.refused request error hpeer herror).clientMove (peers i) e).serverMove e

/-- The log stays the order in which the service was run. -/
theorem Ordered.move {s₀ : S} (h : Ordered service s₀ d)
    (hsound : Sound requests responses peers i c d) (e : Event α) :
    Ordered service s₀ (move requests responses service peers i c d e).2 := by
  unfold Connections.move
  have hserver := clientMove_server responses (peers i) c e
  rcases serverMove_daemon requests responses service i
    (Connections.clientMove responses (peers i) c e) d e with
    ⟨hlog, hservice, -⟩ | ⟨hopen, -, entry, hlog, hentry, hservice, hbody⟩
  · exact ⟨by rw [hlog, hservice]; exact h.sequential, by rw [hlog]; exact h.once⟩
  · refine ⟨?_, ?_⟩
    · rw [hlog, hservice]
      exact h.sequential.concat entry hbody
    · have hpending := hsound.pending (hserver ▸ hopen)
      rw [hlog, List.map_append, List.map_singleton, List.nodup_append]
      refine ⟨h.once, List.nodup_singleton _, ?_⟩
      intro j hj j' hj' heq
      obtain ⟨old, hold, rfl⟩ := List.mem_map.mp hj
      rw [List.mem_singleton.mp hj', hentry] at heq
      exact hpending old hold heq

/-- The conditions are kept by every step, and the steps of one connection leave the conditions of
the others alone. -/
theorem compositional (hrequests : requests.Lawful) (hresponses : responses.Lawful) (s₀ : S) :
    Compositional (move requests responses service peers) (fun _ : Event α => True)
      (Ordered service s₀) (Sound requests responses peers) (Adds (ι := ι)) where
  shared _ _ _ e _ hordered hsound := hordered.move hsound e
  own _ _ _ e _ _ hsound := hsound.move hrequests hresponses e
  guarantee _ _ _ e _ _ _ := adds_serverMove e
  stable _ _ _ _ _ hij hadds hsound := hsound.adds hij hadds

/-- Before anything is sent. -/
theorem sound_initial (hrequests : requests.Lawful) (hd : d.log = []) (i : ι) :
    Sound requests responses peers i ⟨start requests (peers i), .reading [], [], []⟩ d where
  pending _ := by simp [Unanswered, hd]
  faithful request line hpeer hline := by
    have hstart : start (τ := τ) requests (peers i) = .writing line := by
      rw [hpeer, start, hline]
    rw [hstart, hd]
    refine ⟨by simp, ?_, by simp, by simp, ?_, by simp⟩
    · intro frame hframe
      cases hframe
      refine ⟨line, rfl, (line_of_encode hrequests hline).ne_nil, ?_⟩
      intro left hleft
      cases hleft
      rfl
    · intro frame hframe
      cases hframe
      exact .inl ⟨rfl, rfl, by simp⟩
  refused request error hpeer herror := by
    have hstart : start (τ := τ) requests (peers i) = .finished (.error (.protocol error)) := by
      rw [hpeer, start, herror]
    rw [hstart]
    exact ⟨rfl, rfl, .inl rfl, by simp [Unanswered, hd]⟩

/-- What clients and the daemon may rely on. -/
structure Safe (service : HalquenService S α ρ τ) (peers : ι → Peer ρ) (s₀ : S)
    (c : Composite ι (Connection ρ τ) (Daemon ι S α ρ τ)) : Prop where
  /-- The service has handled one request after the other, in the order of the log. -/
  sequential : Sequential service s₀ c.shared.log c.shared.service
  /-- No connection is served twice. -/
  once : (c.shared.log.map Entry.connection).Nodup
  /-- What is dealt with for a client is the request that it sent. -/
  own : ∀ i request, peers i = .client request →
    ∀ entry ∈ c.shared.log, entry.connection = i → entry.request = request
  /-- What a client returns was made for its request. -/
  answered : ∀ i request body, peers i = .client request →
    (c.component i).client = .finished (.ok body) → Answered i request c.shared.log body

/-- The entries of a connection are about its request. -/
theorem Sound.own (h : Sound requests responses peers i c d) (hpeer : peers i = .client request) :
    ∀ entry ∈ d.log, entry.connection = i → entry.request = request := by
  cases hencode : encodeRequest requests request with
  | ok line => exact (h.faithful request line hpeer hencode).entries
  | error error =>
      exact fun entry hentry hi =>
        absurd hi ((h.refused request error hpeer hencode).unanswered entry hentry)

/-- A client that was answered has the answer of the log. -/
theorem Sound.answered (h : Sound requests responses peers i c d)
    (hpeer : peers i = .client request) {body : τ} (hbody : c.client = .finished (.ok body)) :
    Answered i request d.log body := by
  cases hencode : encodeRequest requests request with
  | ok line => exact (h.faithful request line hpeer hencode).finished body hbody
  | error error =>
      have hclient := (h.refused request error hpeer hencode).client
      rw [hbody] at hclient
      cases hclient

/-- So this holds in every reached state. -/
theorem reached_sound [DecidableEq ι] (hrequests : requests.Lawful) (hresponses : responses.Lawful)
    (service : HalquenService S α ρ τ) (peers : ι → Peer ρ) (s₀ : S)
    (events : List (ι × Event α)) :
    Ordered service s₀ (reached requests responses service peers s₀ events).shared ∧
      ∀ i, Sound requests responses peers i
        ((reached requests responses service peers s₀ events).component i)
        (reached requests responses service peers s₀ events).shared :=
  run_compositional (c := initial requests peers s₀) (compositional hrequests hresponses s₀)
    ⟨⟨by simp [initial], rfl⟩, List.nodup_nil⟩ (sound_initial hrequests rfl) (fun _ _ => trivial)

/-- Safety, in every order of the steps of any number of clients and tasks. -/
theorem connections_safe [DecidableEq ι] (hrequests : requests.Lawful)
    (hresponses : responses.Lawful) (service : HalquenService S α ρ τ) (peers : ι → Peer ρ) (s₀ : S)
    (events : List (ι × Event α)) :
    Safe service peers s₀ (reached requests responses service peers s₀ events) := by
  obtain ⟨hordered, hsound⟩ := reached_sound hrequests hresponses service peers s₀ events
  exact
    { sequential := hordered.sequential
      once := hordered.once
      own := fun i _ hpeer => (hsound i).own hpeer
      answered := fun i _ _ hpeer hbody => (hsound i).answered hpeer hbody }

end

/-! ## Two clients that ask for the state of the daemon -/

/-- Responses of a service that answers nothing but requests for its state. -/
inductive HealthResponse where
  | health (schemaVersion : Int)
  | chatCancellation (cancelled : Bool)
  | error (error : ProtocolErrorBody)
  deriving DecidableEq

theorem countable_protocolErrorBody : Countable ProtocolErrorBody := by
  have hinj : Function.Injective fun e : ProtocolErrorBody => (e.code.ctorIdx, e.message) := by
    rintro ⟨code, message⟩ ⟨code', message'⟩ h
    obtain ⟨hcode, hmessage⟩ := Prod.mk.inj h
    have hcodes : code = code' := by
      rw [← ProtocolErrorCode.ofNat_ctorIdx code, ← ProtocolErrorCode.ofNat_ctorIdx code']
      exact congrArg ProtocolErrorCode.ofNat hcode
    dsimp only at hmessage
    rw [hcodes, hmessage]
  exact hinj.countable

theorem countable_healthResponse : Countable HealthResponse := by
  have herror := countable_protocolErrorBody
  have hinj : Function.Injective fun response : HealthResponse =>
      match response with
      | .health version => (Sum.inl version : Int ⊕ (Bool ⊕ ProtocolErrorBody))
      | .chatCancellation cancelled => .inr (.inl cancelled)
      | .error error => .inr (.inr error) := by
    intro response response' h
    cases response <;> cases response' <;> simp_all
  exact hinj.countable

instance instCountableHealthAnswer : Countable (Envelope HealthResponse) :=
  @countable_envelope _ countable_healthResponse

/-- The answer to the request without arguments. -/
def healthResponse : Envelope HealthResponse := ⟨5, "request:7:0", .health 4⟩

/-- `healthResponse` as `serde_json` writes it. -/
def healthResponseText : String :=
  "\x7b\"version\":5,\"request_id\":\"request:7:0\",\"response\":" ++
    "\x7b\"kind\":\"health\",\"status\":\"ok\",\"schema_version\":4\x7d\x7d"

/-- The serializer that knows this answer by its text. -/
noncomputable def healthResponses : Serde (Envelope HealthResponse) :=
  .knowing healthResponse healthResponseText

theorem healthResponses_lawful : healthResponses.Lawful :=
  Serde.knowing_lawful (by decide) (by decide) (by decide) (by decide)

/-- A daemon of schema version 4, which counts the requests that it has handled. -/
def healthService : HalquenService Nat Unit HealthRequest HealthResponse where
  kind _ := .other
  handle _ handled _ := (some (.health 4), handled + 1)
  chatCancellation := .chatCancellation
  error := .error

/-- Both write at once, and the second is handled first. Lines are written and read in parts. -/
def healthEvents : List (Fin 2 × Event Unit) :=
  [(0, .clientWrites 19), (1, .clientWrites 0), (0, .clientWrites 99), (0, .clientShutsDown),
    (1, .clientWrites 99), (0, .serverReads 9), (1, .serverReads 1023),
    (1, .serverDispatches true), (0, .serverReads 99), (0, .serverDispatches true),
    (1, .serviceHandles ()), (0, .serviceHandles ()), (0, .serverWrites 9),
    (1, .clientShutsDown), (1, .serverWrites 999), (0, .clientReads 9), (1, .serverCloses),
    (1, .clientReads 999), (0, .serverWrites 999), (0, .serverCloses), (0, .clientReads 999)]

/-- The daemon after these events. -/
noncomputable def healthRun :
    Composite (Fin 2) (Connection HealthRequest HealthResponse)
      (Daemon (Fin 2) Nat Unit HealthRequest HealthResponse) :=
  reached healthRequests healthResponses healthService (fun _ => .client healthRequest) 0
    healthEvents

/-- Both clients return the answer, and both tasks have closed their streams. -/
theorem healthRun_ended (i : Fin 2) :
    (healthRun.component i).client = .finished (.ok (.health 4)) ∧
      (healthRun.component i).server = .closed (.ok ()) := by
  revert i
  decide +kernel

theorem connections_safe_health :
    Safe healthService (fun _ : Fin 2 => .client healthRequest) 0 healthRun ∧
      ∀ i, (healthRun.component i).client = .finished (.ok (.health 4)) :=
  ⟨connections_safe healthRequests_lawful healthResponses_lawful healthService _ 0 healthEvents,
    fun i => (healthRun_ended i).1⟩

end Halquen.Service.ConnectionSafety
