import Halquen.Service.ConnectionSafety

/-!
# Progress of the connections

Where nobody gives up, a client whose request can be sent goes through a few stages, whatever the
others do (`Stage.move`), and in none of them it is stuck: as long as it has not finished, a step of
its own connection changes something (`Stage.finished`). Every connection takes a bounded number of
such steps (`move_cases`). So every client finishes, with the response that was made for its request
or, where none could be sent, with an incomplete frame (`connections_progress`).
-/

set_option autoImplicit false

namespace Halquen.Service.ConnectionProgress

open Halquen.Library.Interleaving Halquen.Library.Run
open Halquen.Protocol.Frames Halquen.Protocol.Messages
open Halquen.Service.Connections Halquen.Service.ConnectionSafety

section

variable {ι S α ρ τ : Type} (requests : Serde (Envelope ρ)) (responses : Serde (Envelope τ))
  (service : HalquenService S α ρ τ) (peers : ι → Peer ρ)

/-! ## Outcomes -/

/-- What a client returns when its request was dealt with: nothing is sent where the handler has
panicked or its response cannot be encoded. -/
def outcome (request : Envelope ρ) : Option τ → Except RequestError τ
  | none => .error (.read .incompleteFrame)
  | some body =>
      match encodeResponse responses (respondTo request body) with
      | .ok _ => .ok body
      | .error _ => .error (.read .incompleteFrame)

/-- A client has written its request, and waits for the response. -/
inductive Expecting : ClientPhase τ → List UInt8 → Prop where
  | written : Expecting (.writing []) []
  | reading (frame : List UInt8) : Expecting (.reading frame) frame

/-- What is left to be written of the response. -/
inductive Responding : ServerPhase ρ τ → List UInt8 → Prop where
  | writing (rest : List UInt8) : Responding (.writing rest) rest
  | closed : Responding (.closed (.ok ())) []

/-- Stages of a connection whose client's request is encoded as `line`. -/
inductive Stage (i : ι) (request : Envelope ρ) (line : List UInt8) (log : List (Entry ι α ρ τ)) :
    Connection ρ τ → Prop where
  | sending (left frame up : List UInt8) (heq : frame ++ (up ++ left) = line)
      (hne : up ++ left ≠ []) : Stage i request line log ⟨.writing left, .reading frame, up, []⟩
  | sent (frame up : List UInt8) (heq : frame ++ up = line) (hne : up ≠ []) :
      Stage i request line log ⟨.reading [], .reading frame, up, []⟩
  | decoded (client : ClientPhase τ) (hclient : Expecting client []) :
      Stage i request line log ⟨client, .decoded request, [], []⟩
  | waiting (client : ClientPhase τ) (hclient : Expecting client []) :
      Stage i request line log ⟨client, .waiting request, [], []⟩
  | handled (client : ClientPhase τ) (body : τ) (hclient : Expecting client [])
      (hdealt : Dealt i request log (some body)) :
      Stage i request line log ⟨client, .handled (respondTo request body), [], []⟩
  | responding (client : ClientPhase τ) (server : ServerPhase ρ τ) (body : τ)
      (frame down rest bytes : List UInt8) (hclient : Expecting client frame)
      (hserver : Responding server rest) (hdealt : Dealt i request log (some body))
      (hencode : encodeResponse responses (respondTo request body) = .ok bytes)
      (heq : frame ++ (down ++ rest) = bytes) (hne : down ++ rest ≠ []) :
      Stage i request line log ⟨client, server, [], down⟩
  | unsent (client : ClientPhase τ) (error : ConnectionError) (body : Option τ)
      (hclient : Expecting client []) (hdealt : Dealt i request log body)
      (houtcome : outcome responses request body = .error (.read .incompleteFrame)) :
      Stage i request line log ⟨client, .closed (.error error), [], []⟩
  | finished (server : ServerPhase ρ τ) (body : Option τ)
      (hserver : Responding server [] ∨ ∃ error, server = .closed (.error error))
      (hdealt : Dealt i request log body) :
      Stage i request line log ⟨.finished (outcome responses request body), server, [], []⟩

variable {requests responses service peers} {i j : ι} {c : Connection ρ τ} {d d' : Daemon ι S α ρ τ}
  {request : Envelope ρ} {line frame : List UInt8} {log : List (Entry ι α ρ τ)}

/-- What other connections add to the log leaves the stage. -/
theorem Stage.adds (hadds : Adds i d d') (h : Stage responses j request line d.log c) :
    Stage responses j request line d'.log c := by
  cases h with
  | sending left frame up heq hne => exact .sending left frame up heq hne
  | sent frame up heq hne => exact .sent frame up heq hne
  | decoded client hclient => exact .decoded client hclient
  | waiting client hclient => exact .waiting client hclient
  | handled client body hclient hdealt => exact .handled client body hclient (hdealt.adds hadds)
  | responding client server body frame down rest bytes hclient hserver hdealt hencode heq hne =>
      exact .responding client server body frame down rest bytes hclient hserver
        (hdealt.adds hadds) hencode heq hne
  | unsent client error body hclient hdealt houtcome =>
      exact .unsent client error body hclient (hdealt.adds hadds) houtcome
  | finished server body hserver hdealt => exact .finished server body hserver (hdealt.adds hadds)

/-! ## Steps of the client -/

/-- A client that waits for its response only shuts down its side. -/
theorem Expecting.move {client : ClientPhase τ} (hclient : Expecting client frame)
    (responses : Serde (Envelope τ)) (request : Envelope ρ) (server : ServerPhase ρ τ)
    (up down : List UInt8) {e : Event α} (he : e.isFailure = false)
    (hreads : ∀ n, e ≠ .clientReads n) :
    ∃ client', Expecting client' frame ∧
      clientMove responses (.client request) ⟨client, server, up, down⟩ e =
        ⟨client', server, up, down⟩ := by
  cases hclient with
  | written =>
      cases e with
      | clientWrites n =>
          refine ⟨_, .written, ?_⟩
          simp [clientMove]
      | clientShutsDown => exact ⟨_, .reading [], rfl⟩
      | clientReads n => exact absurd rfl (hreads n)
      | clientGivesUp => cases he
      | _ => exact ⟨_, .written, rfl⟩
  | reading frame =>
      cases e with
      | clientReads n => exact absurd rfl (hreads n)
      | clientGivesUp => cases he
      | _ => exact ⟨_, .reading _, rfl⟩

/-- Where nothing has arrived, the client waits for it, unless nothing will. -/
theorem clientMove_reads_nothing (server : ServerPhase ρ τ) (up frame : List UInt8) (n : Nat) :
    clientMove (α := α) responses (.client request) ⟨.reading frame, server, up, []⟩
        (.clientReads n) =
      ⟨if server.shutDown then .finished (.error (.read .incompleteFrame)) else .reading frame,
        server, up, []⟩ := by
  unfold clientMove clientReads
  dsimp only
  rw [if_pos (by simp [chunkOf])]
  split <;> rfl

/-- Before the response, nothing arrives. -/
theorem Expecting.idle {client : ClientPhase τ} (hclient : Expecting client [])
    (responses : Serde (Envelope τ)) (request : Envelope ρ) (server : ServerPhase ρ τ)
    (hserver : server.shutDown = false) {e : Event α} (he : e.isFailure = false) :
    ∃ client', Expecting client' [] ∧
      clientMove responses (.client request) ⟨client, server, [], []⟩ e =
        ⟨client', server, [], []⟩ := by
  rcases e.reads_or with ⟨n, rfl⟩ | hreads
  · refine ⟨client, hclient, ?_⟩
    cases hclient with
    | written => rfl
    | reading =>
        rw [clientMove_reads_nothing, hserver]
        rfl
  · exact hclient.move responses request server [] [] he hreads

/-- A turn of the client's reader, when the response is under way. -/
theorem Stage.clientReads (hresponses : responses.Lawful) {server : ServerPhase ρ τ} {body : τ}
    {down rest bytes : List UInt8} (hserver : Responding server rest)
    (hdealt : Dealt i request log (some body))
    (hencode : encodeResponse responses (respondTo request body) = .ok bytes)
    (heq : frame ++ (down ++ rest) = bytes) (hne : down ++ rest ≠ []) (n : Nat) :
    Stage responses i request line log
      (clientReads responses request ⟨.reading frame, server, [], down⟩ frame n) := by
  have hsame : Stage responses i request line log ⟨.reading frame, server, [], down⟩ :=
    .responding _ server body frame down rest bytes (.reading frame) hserver hdealt hencode heq hne
  unfold Connections.clientReads
  dsimp only
  by_cases hempty : (chunkOf down n).isEmpty = true
  · rw [if_pos hempty]
    have hdown := chunkOf_eq_nil hempty
    -- Bytes are still to come, so the stream has not ended.
    have hshut : server.shutDown = false := by
      cases hserver with
      | writing rest => rfl
      | closed =>
          rw [hdown] at hne
          exact absurd rfl hne
    rw [hshut]
    exact hsame
  · rw [if_neg hempty]
    have hsplit := chunkOf_append down n
    have hchunk : chunkOf down n ≠ [] := fun hnil => hempty (List.isEmpty_iff.mpr hnil)
    have hline := line_of_encode hresponses hencode
    generalize chunkOf down n = chunk at *
    rw [← heq, ← hsplit, List.append_assoc] at hline
    rw [readChunk_line _ hline hchunk]
    -- The last bytes make the line whole, and it is the response to the request.
    by_cases hlast : down.drop chunk.length ++ rest = []
    · rw [if_pos hlast]
      obtain ⟨hdrop, hrest⟩ := List.append_eq_nil_iff.mp hlast
      have hbytes : frame ++ chunk = bytes := by
        rw [← heq, ← hsplit, List.append_assoc, hlast, List.append_nil]
      have houtcome : outcome responses request (some body) = .ok body := by
        rw [outcome, hencode]
      rw [hbytes, hdrop]
      dsimp only
      rw [acceptResponse_of_encode hresponses hencode, ← houtcome]
      subst hrest
      exact .finished server (some body) (.inl hserver) hdealt
    · rw [if_neg hlast]
      refine .responding _ server body (frame ++ chunk) _ rest bytes (.reading _) hserver hdealt
        hencode ?_ hlast
      rw [← heq, ← hsplit]
      simp

/-- While the request is sent the client writes the next part. -/
theorem Stage.clientMove_sending {left up : List UInt8} (heq : frame ++ (up ++ left) = line)
    (hne : up ++ left ≠ []) {e : Event α} (he : e.isFailure = false) :
    Stage responses i request line log
      (clientMove responses (.client request) ⟨.writing left, .reading frame, up, []⟩ e) := by
  cases e with
  | clientWrites n =>
      refine .sending (left.drop (n + 1)) frame (up ++ left.take (n + 1)) ?_ ?_
      · rw [List.append_assoc, List.take_append_drop]
        exact heq
      · rw [List.append_assoc, List.take_append_drop]
        exact hne
  | clientShutsDown =>
      cases left with
      | nil =>
          rw [List.append_nil] at heq hne
          exact .sent frame up heq hne
      | cons byte left => exact .sending (byte :: left) frame up heq hne
  | clientGivesUp => cases he
  | _ => exact .sending left frame up heq hne

/-- When it is sent the client waits. -/
theorem Stage.clientMove_sent {up : List UInt8} (heq : frame ++ up = line) (hne : up ≠ [])
    {e : Event α} (he : e.isFailure = false) :
    Stage responses i request line log
      (clientMove responses (.client request) ⟨.reading [], .reading frame, up, []⟩ e) := by
  cases e with
  | clientReads n =>
      rw [clientMove_reads_nothing]
      exact .sent frame up heq hne
  | clientGivesUp => cases he
  | _ => exact .sent frame up heq hne

/-- While the response is written the client reads the next part. -/
theorem Stage.clientMove_responding (hresponses : responses.Lawful) {client : ClientPhase τ}
    {server : ServerPhase ρ τ} {body : τ} {down rest bytes : List UInt8}
    (hclient : Expecting client frame) (hserver : Responding server rest)
    (hdealt : Dealt i request log (some body))
    (hencode : encodeResponse responses (respondTo request body) = .ok bytes)
    (heq : frame ++ (down ++ rest) = bytes) (hne : down ++ rest ≠ []) {e : Event α}
    (he : e.isFailure = false) :
    Stage responses i request line log
      (clientMove responses (.client request) ⟨client, server, [], down⟩ e) := by
  rcases e.reads_or with ⟨n, rfl⟩ | hreads
  · cases hclient with
    | written =>
        exact .responding _ server body [] down rest bytes .written hserver hdealt hencode heq hne
    | reading => exact Stage.clientReads hresponses hserver hdealt hencode heq hne n
  · obtain ⟨client', hclient', hmove⟩ := hclient.move responses request server [] down he hreads
    rw [hmove]
    exact .responding client' server body frame down rest bytes hclient' hserver hdealt hencode
      heq hne

/-- The client learns from the closed stream that nothing was sent. -/
theorem Stage.clientMove_unsent {client : ClientPhase τ} {error : ConnectionError}
    {body : Option τ} (hclient : Expecting client []) (hdealt : Dealt i request log body)
    (houtcome : outcome responses request body = .error (.read .incompleteFrame)) {e : Event α}
    (he : e.isFailure = false) :
    Stage responses i request line log
      (clientMove responses (.client request) ⟨client, .closed (.error error), [], []⟩ e) := by
  rcases e.reads_or with ⟨n, rfl⟩ | hreads
  · cases hclient with
    | written => exact .unsent _ error body .written hdealt houtcome
    | reading =>
        have hfinished : Stage responses i request line log
            ⟨.finished (outcome responses request body), .closed (.error error), [], []⟩ :=
          .finished _ body (.inr ⟨error, rfl⟩) hdealt
        rw [houtcome] at hfinished
        rw [clientMove_reads_nothing]
        exact hfinished
  · obtain ⟨client', hclient', hmove⟩ := hclient.move responses request
      (.closed (.error error)) [] [] he hreads
    rw [hmove]
    exact .unsent client' error body hclient' hdealt houtcome

/-- A finished client moves no more. -/
theorem clientMove_finished (peer : Peer ρ) (outcome : Except RequestError τ)
    (server : ServerPhase ρ τ) (up down : List UInt8) (e : Event α) :
    clientMove responses peer ⟨.finished outcome, server, up, down⟩ e =
      ⟨.finished outcome, server, up, down⟩ := by
  cases e <;> rfl

/-- Every move of the client leaves a stage, phase by phase. -/
theorem Stage.clientMove (hresponses : responses.Lawful)
    (h : Stage responses i request line log c) {e : Event α} (he : e.isFailure = false) :
    Stage responses i request line log (clientMove responses (.client request) c e) := by
  cases h with
  | sending left frame up heq hne => exact .clientMove_sending heq hne he
  | sent frame up heq hne => exact .clientMove_sent heq hne he
  | decoded client hclient =>
      obtain ⟨client', hclient', hmove⟩ := hclient.idle responses request
        (.decoded request) rfl he
      rw [hmove]
      exact .decoded client' hclient'
  | waiting client hclient =>
      obtain ⟨client', hclient', hmove⟩ := hclient.idle responses request
        (.waiting request) rfl he
      rw [hmove]
      exact .waiting client' hclient'
  | handled client body hclient hdealt =>
      obtain ⟨client', hclient', hmove⟩ := hclient.idle responses request
        (.handled (respondTo request body)) rfl he
      rw [hmove]
      exact .handled client' body hclient' hdealt
  | responding client server body frame down rest bytes hclient hserver hdealt hencode heq hne =>
      exact .clientMove_responding hresponses hclient hserver hdealt hencode heq hne he
  | unsent client error body hclient hdealt houtcome =>
      exact .clientMove_unsent hclient hdealt houtcome he
  | finished server body hserver hdealt =>
      rw [clientMove_finished]
      exact .finished server body hserver hdealt

/-! ## Steps of the daemon -/

/-- A turn of the daemon's reader on the way to a whole line. -/
theorem serverReads_line (responses : Serde (Envelope τ)) (service : HalquenService S α ρ τ)
    (hrequests : requests.Lawful) (hline : encodeRequest requests request = .ok line)
    (client : ClientPhase τ) (server : ServerPhase ρ τ) {up left : List UInt8}
    (down : List UInt8) (heq : frame ++ (up ++ left) = line) {n : Nat}
    (hempty : ¬ (chunkOf up n).isEmpty = true) :
    serverReads requests responses service ⟨client, server, up, down⟩ frame n =
      ⟨client,
        if up.drop (chunkOf up n).length ++ left = [] then .decoded request
        else .reading (frame ++ chunkOf up n),
        up.drop (chunkOf up n).length, down⟩ := by
  have hsplit := chunkOf_append up n
  have hchunk : chunkOf up n ≠ [] := fun hnil => hempty (List.isEmpty_iff.mpr hnil)
  unfold serverReads
  dsimp only
  rw [if_neg hempty]
  generalize chunkOf up n = chunk at *
  have hparts : frame ++ (chunk ++ (up.drop chunk.length ++ left)) = line := by
    rw [← heq, ← hsplit]
    simp
  rw [readChunk_line _ (hparts ▸ line_of_encode hrequests hline) hchunk]
  by_cases hlast : up.drop chunk.length ++ left = []
  · rw [if_pos hlast, if_pos hlast]
    have hframe : frame ++ chunk = line := by
      rw [← hparts, hlast, List.append_nil]
    rw [hframe]
    dsimp only
    rw [receive_of_encode hrequests hline]
  · rw [if_neg hlast, if_neg hlast]

/-- What follows when the request was dealt with. -/
theorem Stage.respond (hresponses : responses.Lawful) {client : ClientPhase τ}
    (hclient : Expecting client []) {body : τ} (hdealt : Dealt i request log (some body)) :
    Stage responses i request line log
      ⟨client, respond responses (respondTo request body), [], []⟩ := by
  rcases respond_cases (ρ := ρ) responses (respondTo request body) with
    ⟨bytes, hencode, hserver⟩ | ⟨error, hencode, hserver⟩
  · rw [hserver]
    exact .responding client _ body [] [] bytes bytes hclient (.writing bytes) hdealt hencode rfl
      (encode_ne_nil hresponses hencode)
  · rw [hserver]
    exact .unsent client _ (some body) hclient hdealt (by rw [outcome, hencode])

/-- An answer begins the last stage. -/
theorem Stage.answer (hresponses : responses.Lawful) {client : ClientPhase τ}
    {server : ServerPhase ρ τ} (hclient : Expecting client []) (body : τ) :
    Stage responses i request line
      (answer responses i ⟨client, server, [], []⟩ d request body).2.log
      (answer responses i ⟨client, server, [], []⟩ d request body).1 :=
  .respond hresponses hclient (answered_concat i request body none d.log)

/-- A decoded request is answered or waits for the service. -/
theorem Stage.dispatch (hresponses : responses.Lawful) {client : ClientPhase τ}
    (hclient : Expecting client []) (alive : Bool) :
    Stage responses i request line
      (dispatch responses service i ⟨client, .decoded request, [], []⟩ d request alive).2.log
      (dispatch responses service i ⟨client, .decoded request, [], []⟩ d request alive).1 := by
  unfold Connections.dispatch
  split
  · exact .answer hresponses hclient _
  · split
    · exact .answer hresponses hclient _
    · exact .waiting client hclient
  · exact .waiting client hclient

/-- The service handles the request once. -/
theorem Stage.serve (hresponses : responses.Lawful) {client : ClientPhase τ}
    (hclient : Expecting client []) (input : α) :
    Stage responses i request line
      (serve responses service i ⟨client, .waiting request, [], []⟩ d request input).2.log
      (serve responses service i ⟨client, .waiting request, [], []⟩ d request input).1 := by
  unfold Connections.serve
  generalize service.handle input d.service request = handled
  obtain ⟨body, s⟩ := handled
  have hdealt : Dealt i request (d.log ++ [⟨i, request, body, some input⟩]) body :=
    ⟨⟨i, request, body, some input⟩, by simp, rfl, rfl, rfl⟩
  cases body with
  | none => exact .unsent client _ none hclient hdealt rfl
  | some body =>
      unfold settle
      dsimp only
      split
      · exact .handled client body hclient hdealt
      · exact .respond hresponses hclient hdealt

/-- A response is written, and then the stream is closed. -/
theorem Responding.move {server : ServerPhase ρ τ} {rest : List UInt8}
    (hserver : Responding server rest) (requests : Serde (Envelope ρ))
    (responses : Serde (Envelope τ)) (service : HalquenService S α ρ τ) (i : ι)
    (d : Daemon ι S α ρ τ) (client : ClientPhase τ) (down : List UInt8) {e : Event α}
    (he : e.isFailure = false) :
    ∃ server' n, Responding server' (rest.drop n) ∧
      serverMove requests responses service i ⟨client, server, [], down⟩ d e =
        (⟨client, server', [], down ++ rest.take n⟩, d) := by
  have hstill : ∃ server' n, Responding server' (rest.drop n) ∧
      ((⟨client, server, [], down⟩, d) : Connection ρ τ × Daemon ι S α ρ τ) =
        (⟨client, server', [], down ++ rest.take n⟩, d) :=
    ⟨server, 0, hserver, by rw [List.take_zero, List.append_nil]⟩
  cases hserver with
  | writing rest =>
      cases e with
      | serverWrites n => exact ⟨_, n + 1, .writing (rest.drop (n + 1)), rfl⟩
      | serverCloses =>
          cases rest with
          | nil => exact ⟨_, 0, .closed, by rw [List.take_zero, List.append_nil]; rfl⟩
          | cons byte rest => exact hstill
      | serverGivesUp => cases he
      | _ => exact hstill
  | closed => cases e <;> exact hstill

/-- The daemon reads on while the client is still sending. -/
theorem Stage.serverMove_sending (hrequests : requests.Lawful)
    (hline : encodeRequest requests request = .ok line) {left up : List UInt8}
    (heq : frame ++ (up ++ left) = line) (hne : up ++ left ≠ []) {e : Event α}
    (he : e.isFailure = false) :
    Stage responses i request line
      (serverMove requests responses service i ⟨.writing left, .reading frame, up, []⟩ d e).2.log
      (serverMove requests responses service i ⟨.writing left, .reading frame, up, []⟩ d e).1 := by
  cases e with
  | serverReads n =>
      unfold Connections.serverMove
      dsimp only
      by_cases hempty : (chunkOf up n).isEmpty = true
      · unfold serverReads
        dsimp only
        rw [if_pos hempty]
        exact .sending left frame up heq hne
      · rw [serverReads_line responses service hrequests hline _ _ _ heq hempty]
        by_cases hlast : up.drop (chunkOf up n).length ++ left = []
        · rw [if_pos hlast]
          obtain ⟨hup, rfl⟩ := List.append_eq_nil_iff.mp hlast
          rw [hup]
          exact .decoded _ .written
        · rw [if_neg hlast]
          refine .sending left _ _ ?_ hlast
          rw [List.append_assoc, ← List.append_assoc (chunkOf up n), chunkOf_append]
          exact heq
  | serverGivesUp => cases he
  | _ => exact .sending left frame up heq hne

/-- While the request arrives the server reads the next part, until the line is whole. -/
theorem Stage.serverMove_sent (hrequests : requests.Lawful)
    (hline : encodeRequest requests request = .ok line) {up : List UInt8}
    (heq : frame ++ up = line) (hne : up ≠ []) {e : Event α} (he : e.isFailure = false) :
    Stage responses i request line
      (serverMove requests responses service i ⟨.reading [], .reading frame, up, []⟩ d e).2.log
      (serverMove requests responses service i ⟨.reading [], .reading frame, up, []⟩ d e).1 := by
  cases e with
  | serverReads n =>
      unfold Connections.serverMove
      dsimp only
      have hempty : ¬ (chunkOf up n).isEmpty = true := fun h => hne (chunkOf_eq_nil h)
      have heq' : frame ++ (up ++ []) = line := by rw [List.append_nil, heq]
      rw [serverReads_line responses service hrequests hline _ _ _ heq' hempty, List.append_nil]
      by_cases hlast : up.drop (chunkOf up n).length = []
      · rw [if_pos hlast, hlast]
        exact .decoded _ (.reading [])
      · rw [if_neg hlast]
        refine .sent _ _ ?_ hlast
        rw [List.append_assoc, chunkOf_append]
        exact heq
  | serverGivesUp => cases he
  | _ => exact .sent frame up heq hne

/-- While the response is sent the server writes the next part. -/
theorem Stage.serverMove_responding {client : ClientPhase τ} {server : ServerPhase ρ τ} {body : τ}
    {down rest bytes : List UInt8} (hclient : Expecting client frame)
    (hserver : Responding server rest) (hdealt : Dealt i request d.log (some body))
    (hencode : encodeResponse responses (respondTo request body) = .ok bytes)
    (heq : frame ++ (down ++ rest) = bytes) (hne : down ++ rest ≠ []) {e : Event α}
    (he : e.isFailure = false) :
    Stage responses i request line
      (serverMove requests responses service i ⟨client, server, [], down⟩ d e).2.log
      (serverMove requests responses service i ⟨client, server, [], down⟩ d e).1 := by
  obtain ⟨server', n, hserver', hmove⟩ := hserver.move requests responses service i d client down
    he
  rw [hmove]
  refine .responding client server' body frame _ _ bytes hclient hserver' hdealt hencode ?_ ?_
  · rw [List.append_assoc, List.take_append_drop]
    exact heq
  · rw [List.append_assoc, List.take_append_drop]
    exact hne

/-- The task closes its stream after the client has finished. -/
theorem Stage.serverMove_finished {server : ServerPhase ρ τ} {body : Option τ}
    (hserver : Responding server [] ∨ ∃ error, server = .closed (.error error))
    (hdealt : Dealt i request d.log body) {e : Event α} (he : e.isFailure = false) :
    Stage responses i request line
      (serverMove requests responses service i
        ⟨.finished (outcome responses request body), server, [], []⟩ d e).2.log
      (serverMove requests responses service i
        ⟨.finished (outcome responses request body), server, [], []⟩ d e).1 := by
  rcases hserver with hserver | ⟨error, rfl⟩
  · obtain ⟨server', n, hserver', hmove⟩ := hserver.move requests responses service i d
      (.finished (outcome responses request body)) [] he
    rw [hmove]
    rw [List.drop_nil] at hserver'
    rw [List.take_nil]
    exact .finished server' body (.inl hserver') hdealt
  · cases e <;> exact .finished _ body (.inr ⟨error, rfl⟩) hdealt

/-- Every move of the server leaves a stage, phase by phase. -/
theorem Stage.serverMove (hrequests : requests.Lawful) (hresponses : responses.Lawful)
    (hline : encodeRequest requests request = .ok line)
    (h : Stage responses i request line d.log c) {e : Event α} (he : e.isFailure = false) :
    Stage responses i request line (serverMove requests responses service i c d e).2.log
      (serverMove requests responses service i c d e).1 := by
  cases h with
  | sending left frame up heq hne => exact .serverMove_sending hrequests hline heq hne he
  | sent frame up heq hne => exact .serverMove_sent hrequests hline heq hne he
  | decoded client hclient =>
      cases e with
      | serverDispatches alive => exact .dispatch hresponses hclient alive
      | _ => exact .decoded client hclient
  | waiting client hclient =>
      cases e with
      | serviceHandles input => exact .serve hresponses hclient input
      | _ => exact .waiting client hclient
  | handled client body hclient hdealt =>
      cases e with
      | serverCleansUp => exact .respond hresponses hclient hdealt
      | _ => exact .handled client body hclient hdealt
  | responding client server body frame down rest bytes hclient hserver hdealt hencode heq hne =>
      exact .serverMove_responding hclient hserver hdealt hencode heq hne he
  | unsent client error body hclient hdealt houtcome =>
      cases e <;> exact .unsent client error body hclient hdealt houtcome
  | finished server body hserver hdealt => exact .serverMove_finished hserver hdealt he

/-! ## Nobody is stuck -/

theorem length_drop_chunkOf_lt {arrived : List UInt8} {n : Nat}
    (hempty : ¬ (chunkOf arrived n).isEmpty = true) :
    (arrived.drop (chunkOf arrived n).length).length < arrived.length := by
  have hsplit := congrArg List.length (chunkOf_append arrived n)
  rw [List.length_append] at hsplit
  have hpos := List.length_pos_of_ne_nil fun hnil => hempty (List.isEmpty_iff.mpr hnil)
  omega

theorem clientReads_down (responses : Serde (Envelope τ)) (request : Envelope ρ)
    (c : Connection ρ τ) (frame : List UInt8) {n : Nat}
    (hempty : ¬ (chunkOf c.down n).isEmpty = true) :
    (clientReads responses request c frame n).down =
      c.down.drop (chunkOf c.down n).length := by
  unfold clientReads
  dsimp only
  rw [if_neg hempty]
  split <;> rfl

theorem dispatch_server_ne (c : Connection ρ τ) (d : Daemon ι S α ρ τ) (alive : Bool) :
    (dispatch responses service i c d request alive).1.server ≠ .decoded request := by
  unfold dispatch answer
  have hrespond : ∀ body, (respond responses (respondTo request body) : ServerPhase ρ τ) ≠
      .decoded request := by
    intro body hserver
    have hopen : Open (.decoded request : ServerPhase ρ τ) := trivial
    exact not_open_respond (respondTo request body) (hserver ▸ hopen)
  split
  · exact hrespond _
  · split
    · exact hrespond _
    · simp
  · simp

/-- No step of this connection changes it, failures apart. -/
def Still (requests : Serde (Envelope ρ)) (responses : Serde (Envelope τ))
    (service : HalquenService S α ρ τ) (i : ι) (request : Envelope ρ) (c : Connection ρ τ)
    (d : Daemon ι S α ρ τ) : Prop :=
  ∀ e : Event α, e.isFailure = false →
    (serverMove requests responses service i (clientMove responses (.client request) c e) d e).1 = c

/-- A client that has written everything shuts down its side. -/
theorem Still.not_written {server : ServerPhase ρ τ} {up down : List UInt8} :
    ¬ Still requests responses service i request ⟨.writing [], server, up, down⟩ d := by
  intro hstill
  have hshut := congrArg Connection.client (hstill .clientShutsDown rfl)
  cases hshut

/-- A client that has not written everything writes on. -/
theorem Still.not_sending {left up : List UInt8} :
    ¬ Still requests responses service i request ⟨.writing left, .reading frame, up, []⟩ d := by
  intro hstill
  cases left with
  | nil => exact Still.not_written hstill
  | cons byte left =>
      have hwrites := congrArg Connection.client (hstill (.clientWrites 0) rfl)
      simp [Connections.clientMove, Connections.serverMove] at hwrites

/-- What has been sent is read. -/
theorem Still.not_sent (hrequests : requests.Lawful)
    (hline : encodeRequest requests request = .ok line) {up : List UInt8}
    (heq : frame ++ up = line) (hne : up ≠ []) :
    ¬ Still requests responses service i request ⟨.reading [], .reading frame, up, []⟩ d := by
  intro hstill
  have hempty : ¬ (chunkOf up 0).isEmpty = true := fun h => hne (chunkOf_eq_nil h)
  have heq' : frame ++ (up ++ []) = line := by rw [List.append_nil, heq]
  have hreads := hstill (.serverReads 0) rfl
  have hreads' := congrArg (fun c => c.up.length)
    ((serverReads_line responses service hrequests hline (.reading []) (.reading frame) []
      heq' hempty).symm.trans hreads)
  exact absurd hreads' (Nat.ne_of_lt (length_drop_chunkOf_lt hempty))

/-- The service handles the request when it is its turn. -/
theorem Still.not_waiting [Nonempty α] {client : ClientPhase τ} :
    ¬ Still requests responses service i request ⟨client, .waiting request, [], []⟩ d := by
  intro hstill
  obtain ⟨input⟩ := ‹Nonempty α›
  have hserver : settle responses service request
      (service.handle input d.service request).1 = .waiting request :=
    congrArg Connection.server (hstill (.serviceHandles input) rfl)
  have hnot := not_open_settle responses service request
    (service.handle input d.service request).1
  rw [hserver] at hnot
  exact hnot trivial

/-- A handled chat is removed from the registry, and then answered. -/
theorem Still.not_handled {client : ClientPhase τ} {response : Envelope τ} :
    ¬ Still requests responses service i request ⟨client, .handled response, [], []⟩ d := by
  intro hstill
  have hserver := congrArg Connection.server (hstill .serverCleansUp rfl)
  rcases respond_cases (ρ := ρ) responses response with
    ⟨bytes, -, hrespond⟩ | ⟨error, -, hrespond⟩
  · cases hrespond.symm.trans hserver
  · cases hrespond.symm.trans hserver

/-- A response is written and read to its end. -/
theorem Still.not_responding {client : ClientPhase τ} {server : ServerPhase ρ τ}
    {down rest : List UInt8} (hclient : Expecting client frame) (hserver : Responding server rest)
    (hne : down ++ rest ≠ []) :
    ¬ Still requests responses service i request ⟨client, server, [], down⟩ d := by
  intro hstill
  cases hclient with
  | written => exact Still.not_written hstill
  | reading =>
      by_cases hdown : down = []
      · rw [hdown, List.nil_append] at hne
        cases hserver with
        | writing =>
            have hwrites := congrArg Connection.server (hstill (.serverWrites 0) rfl)
            have hdrop := congrArg List.length (ServerPhase.writing.inj hwrites)
            rw [List.length_drop] at hdrop
            have hpos := List.length_pos_of_ne_nil hne
            omega
        | closed => exact hne rfl
      · have hempty : ¬ (chunkOf down 0).isEmpty = true := fun h => hdown (chunkOf_eq_nil h)
        have hreads := congrArg (fun c => c.down.length) (hstill (.clientReads 0) rfl)
        have hlt := length_drop_chunkOf_lt hempty
        have hleft := clientReads_down responses request ⟨.reading frame, server, [], down⟩
          frame hempty
        exact absurd ((congrArg List.length hleft).symm.trans hreads) (Nat.ne_of_lt hlt)

/-- A client notices that the stream was closed. -/
theorem Still.not_unsent {client : ClientPhase τ} {error : ConnectionError}
    (hclient : Expecting client []) :
    ¬ Still requests responses service i request ⟨client, .closed (.error error), [], []⟩ d := by
  intro hstill
  cases hclient with
  | written => exact Still.not_written hstill
  | reading =>
      have hreads := congrArg Connection.client (hstill (.clientReads 0) rfl)
      rw [clientMove_reads_nothing] at hreads
      cases hreads

/-- A client that has not finished is not at rest. -/
theorem Stage.finished_of_rest [Nonempty α] (hrequests : requests.Lawful)
    (hline : encodeRequest requests request = .ok line) (hpeer : peers i = .client request)
    (h : Stage responses i request line d.log c)
    (hrest : ∀ e : Event α, e.isFailure = false →
      (move requests responses service peers i c d e).1 = c) :
    ∃ body, Dealt i request d.log body ∧ c.client = .finished (outcome responses request body) := by
  have hstill : Still requests responses service i request c d := by
    intro e he
    have hmove := hrest e he
    unfold move at hmove
    rw [hpeer] at hmove
    exact hmove
  cases h with
  | sending left frame up heq hne => exact absurd hstill Still.not_sending
  | sent frame up heq hne => exact absurd hstill (Still.not_sent hrequests hline heq hne)
  | decoded client hexpects =>
      have hserver := congrArg Connection.server (hstill (.serverDispatches true) rfl)
      exact absurd hserver (dispatch_server_ne _ d true)
  | waiting client hexpects => exact absurd hstill Still.not_waiting
  | handled client body hexpects hdealt => exact absurd hstill Still.not_handled
  | responding client server body frame down rest bytes hexpects hserver hdealt hencode heq hne =>
      exact absurd hstill (Still.not_responding hexpects hserver hne)
  | unsent client error body hexpects hdealt houtcome =>
      exact absurd hstill (Still.not_unsent hexpects)
  | finished server body hserver hdealt => exact ⟨body, hdealt, rfl⟩

/-! ## Bounds -/

/-- Bounds the steps that a client can still take. -/
def clientPotential : ClientPhase τ → Nat
  | .writing rest => 2 * rest.length + 3
  | .reading _ => 2
  | .finished _ => 0

/-- How many moves the server has left, whatever arrives. -/
def serverPotential : ServerPhase ρ τ → Nat
  | .reading _ => 2 * maxFrameSize + 5
  | .decoded _ => 2 * maxFrameSize + 4
  | .waiting _ => 2 * maxFrameSize + 3
  | .handled _ => 2 * maxFrameSize + 2
  | .writing rest => 2 * rest.length + 1
  | .closed _ => 0

theorem serverPotential_reading (frame : List UInt8) :
    serverPotential (.reading frame : ServerPhase ρ τ) = 2 * maxFrameSize + 5 := rfl

theorem serverPotential_decoded (request : Envelope ρ) :
    serverPotential (.decoded request : ServerPhase ρ τ) = 2 * maxFrameSize + 4 := rfl

theorem serverPotential_waiting (request : Envelope ρ) :
    serverPotential (.waiting request : ServerPhase ρ τ) = 2 * maxFrameSize + 3 := rfl

theorem serverPotential_handled (response : Envelope τ) :
    serverPotential (.handled response : ServerPhase ρ τ) = 2 * maxFrameSize + 2 := rfl

/-- How many moves a connection has left. -/
def potential (c : Connection ρ τ) : Nat :=
  clientPotential c.client + c.up.length + (serverPotential c.server + c.down.length)

theorem length_take_drop (bytes : List UInt8) (n : Nat) :
    (bytes.take n).length + (bytes.drop n).length = bytes.length := by
  rw [← List.length_append, List.take_append_drop]

/-- To finish lowers the potential. -/
theorem potential_finished (hclient : 0 < clientPotential c.client)
    (outcome : Except RequestError τ) :
    potential ({ c with client := .finished outcome } : Connection ρ τ) < potential c := by
  have hfinished : clientPotential (.finished outcome) = 0 := rfl
  simp only [potential, hfinished]
  omega

/-- Each kind of move takes something from the potential. -/
theorem potential_clientWrites {rest : List UInt8} (hclient : c.client = .writing rest) (n : Nat) :
    ({ c with client := .writing (rest.drop (n + 1)), up := c.up ++ rest.take (n + 1) } :
        Connection ρ τ) = c ∨
      potential
          ({ c with client := .writing (rest.drop (n + 1)), up := c.up ++ rest.take (n + 1) } :
            Connection ρ τ) <
        potential c := by
  cases rest with
  | nil =>
      left
      rw [List.drop_nil, List.take_nil, List.append_nil, ← hclient]
  | cons byte rest =>
      right
      have hlength := length_take_drop rest n
      simp only [potential, hclient, clientPotential, List.drop_succ_cons, List.take_succ_cons,
        List.length_append, List.length_cons]
      omega

theorem potential_clientReads (responses : Serde (Envelope τ)) (request : Envelope ρ) (n : Nat)
    (hclient : c.client = .reading frame) :
    clientReads responses request c frame n = c ∨
      potential (clientReads responses request c frame n) < potential c := by
  have hpos : 0 < clientPotential c.client := by
    rw [hclient]
    exact Nat.two_pos
  unfold clientReads
  dsimp only
  by_cases hempty : (chunkOf c.down n).isEmpty = true
  · rw [if_pos hempty]
    split
    · exact .inr (potential_finished hpos _)
    · exact .inl rfl
  · rw [if_neg hempty]
    have hlt := length_drop_chunkOf_lt hempty
    right
    split <;> simp only [potential, hclient, clientPotential] <;> omega

/-- A move of the client changes nothing or lowers the potential. -/
theorem clientMove_cases (responses : Serde (Envelope τ)) (peer : Peer ρ) (c : Connection ρ τ)
    (e : Event α) : clientMove responses peer c e = c ∨
      potential (clientMove responses peer c e) < potential c := by
  unfold clientMove
  -- One kind of step after the other; the steps of the daemon leave the client alone.
  cases e with
  | clientWrites n =>
      dsimp only
      split
      · next rest hclient => exact potential_clientWrites hclient n
      · exact .inl rfl
  | clientShutsDown =>
      dsimp only
      split
      · next hclient =>
          right
          simp only [potential, hclient, clientPotential]
          omega
      · next hclient => exact .inr (potential_finished (by simp [hclient, clientPotential]) _)
      · exact .inl rfl
  | clientReads n =>
      dsimp only
      split
      · next frame request hclient => exact potential_clientReads responses request n hclient
      · exact .inl rfl
  | clientGivesUp =>
      dsimp only
      split
      · next hclient => exact .inr (potential_finished (by simp [hclient, clientPotential]) _)
      · next hclient => exact .inr (potential_finished (by simp [hclient, clientPotential]) _)
      · exact .inl rfl
  | _ => exact .inl rfl

/-- To close lowers the potential. -/
theorem potential_closed (hserver : 0 < serverPotential c.server)
    (result : Except ConnectionError Unit) :
    potential ({ c with server := .closed result } : Connection ρ τ) < potential c := by
  have hclosed : serverPotential (.closed result : ServerPhase ρ τ) = 0 := rfl
  simp only [potential, hclosed]
  omega

theorem serverPotential_respond (responses : Serde (Envelope τ)) (response : Envelope τ) :
    serverPotential (respond responses response : ServerPhase ρ τ) ≤ 2 * maxFrameSize + 1 := by
  rcases respond_cases (ρ := ρ) responses response with
    ⟨bytes, hencode, hserver⟩ | ⟨error, -, hserver⟩
  · obtain ⟨-, hsize, rfl⟩ := of_encodeEnvelope hencode
    rw [hserver]
    simp only [serverPotential, List.length_append, List.length_singleton]
    omega
  · rw [hserver]
    simp [serverPotential]

theorem serverPotential_settle (responses : Serde (Envelope τ)) (service : HalquenService S α ρ τ)
    (request : Envelope ρ) (body : Option τ) :
    serverPotential (settle responses service request body) ≤ 2 * maxFrameSize + 2 := by
  cases body with
  | none => exact Nat.zero_le _
  | some body =>
      unfold settle
      dsimp only
      split
      · exact Nat.le_refl _
      · have hrespond := serverPotential_respond (ρ := ρ) responses
          (respondTo request body)
        omega

theorem serverPotential_receive (requests : Serde (Envelope ρ)) (responses : Serde (Envelope τ))
    (service : HalquenService S α ρ τ) (frame : List UInt8) :
    serverPotential (receive requests responses service frame) ≤ 2 * maxFrameSize + 4 := by
  unfold receive
  split
  · exact Nat.le_refl _
  · next error _ =>
      have hrespond := serverPotential_respond (ρ := ρ) responses
        (codecErrorResponse service error)
      omega

theorem potential_serverReads (requests : Serde (Envelope ρ)) (responses : Serde (Envelope τ))
    (service : HalquenService S α ρ τ) (n : Nat) (hserver : c.server = .reading frame) :
    serverReads requests responses service c frame n = c ∨
      potential (serverReads requests responses service c frame n) < potential c := by
  unfold serverReads
  dsimp only
  by_cases hempty : (chunkOf c.up n).isEmpty = true
  · rw [if_pos hempty]
    split
    · exact .inr (potential_closed (by simp [hserver, serverPotential]) _)
    · exact .inl rfl
  · rw [if_neg hempty]
    have hlt := length_drop_chunkOf_lt hempty
    right
    split
    · simp only [potential, hserver, serverPotential]
      omega
    · simp only [potential, hserver, serverPotential]
      omega
    · next whole _ =>
        have hreceive := serverPotential_receive requests responses service whole
        simp only [potential, hserver, serverPotential_reading]
        omega

theorem potential_dispatch (hserver : c.server = .decoded request) (alive : Bool) :
    potential (dispatch responses service i c d request alive).1 < potential c := by
  have hrespond : ∀ response : Envelope τ,
      serverPotential (respond responses response : ServerPhase ρ τ) ≤ 2 * maxFrameSize + 1 :=
    serverPotential_respond responses
  unfold dispatch answer
  split
  · next id _ =>
      have hle := hrespond (respondTo request
        (service.chatCancellation (d.cancellations.contains id && alive)))
      simp only [potential, hserver, serverPotential_decoded]
      omega
  · split
    · have hle := hrespond (respondTo request (service.error duplicateRequest))
      simp only [potential, hserver, serverPotential_decoded]
      omega
    · simp only [potential, hserver, serverPotential]
      omega
  · simp only [potential, hserver, serverPotential]
    omega

theorem potential_serve (hserver : c.server = .waiting request) (input : α) :
    potential (serve responses service i c d request input).1 < potential c := by
  have hle := serverPotential_settle responses service request
    (service.handle input d.service request).1
  simp only [potential, hserver, serverPotential_waiting, serve]
  omega

theorem potential_serverWrites {rest : List UInt8} (hserver : c.server = .writing rest) (n : Nat) :
    ({ c with server := .writing (rest.drop (n + 1)), down := c.down ++ rest.take (n + 1) } :
        Connection ρ τ) = c ∨
      potential
          ({ c with server := .writing (rest.drop (n + 1)), down := c.down ++ rest.take (n + 1) } :
            Connection ρ τ) <
        potential c := by
  cases rest with
  | nil =>
      left
      rw [List.drop_nil, List.take_nil, List.append_nil, ← hserver]
  | cons byte rest =>
      right
      have hlength := length_take_drop rest n
      simp only [potential, hserver, serverPotential, List.drop_succ_cons, List.take_succ_cons,
        List.length_append, List.length_cons]
      omega

/-- So does a move of the server. -/
theorem serverMove_cases (requests : Serde (Envelope ρ)) (responses : Serde (Envelope τ))
    (service : HalquenService S α ρ τ) (i : ι) (c : Connection ρ τ) (d : Daemon ι S α ρ τ)
    (e : Event α) :
    serverMove requests responses service i c d e = (c, d) ∨
      potential (serverMove requests responses service i c d e).1 < potential c := by
  unfold serverMove
  -- One kind of step after the other; the steps of the client leave the task alone.
  cases e with
  | serverReads n =>
      dsimp only
      split
      · next frame hserver =>
          rcases potential_serverReads requests responses service n hserver with hsame | hless
          · exact .inl (by rw [hsame])
          · exact .inr hless
      · exact .inl rfl
  | serverDispatches alive =>
      dsimp only
      split
      · next request hserver => exact .inr (potential_dispatch hserver alive)
      · exact .inl rfl
  | serviceHandles input =>
      dsimp only
      split
      · next request hserver => exact .inr (potential_serve hserver input)
      · exact .inl rfl
  | serverCleansUp =>
      dsimp only
      split
      · next response hserver =>
          have hle := serverPotential_respond (ρ := ρ) responses response
          right
          simp only [potential, hserver, serverPotential_handled]
          omega
      · exact .inl rfl
  | serverWrites n =>
      dsimp only
      split
      · next rest hserver =>
          rcases potential_serverWrites hserver n with hsame | hless
          · exact .inl (by rw [hsame])
          · exact .inr hless
      · exact .inl rfl
  | serverCloses =>
      dsimp only
      split
      · next hserver => exact .inr (potential_closed (by simp [hserver, serverPotential]) _)
      · exact .inl rfl
  | serverGivesUp =>
      dsimp only
      split
      · next hserver => exact .inr (potential_closed (by simp [hserver, serverPotential]) _)
      · next hserver => exact .inr (potential_closed (by simp [hserver, serverPotential]) _)
      · exact .inl rfl
  | _ => exact .inl rfl

/-- So does every move. -/
theorem move_cases (i : ι) (c : Connection ρ τ) (d : Daemon ι S α ρ τ) (e : Event α) :
    move requests responses service peers i c d e = (c, d) ∨
      potential (move requests responses service peers i c d e).1 < potential c := by
  unfold move
  rcases clientMove_cases responses (peers i) c e with hclient | hclient
  · rw [hclient]
    exact serverMove_cases requests responses service i c d e
  · rcases serverMove_cases requests responses service i (clientMove responses (peers i) c e) d e
      with hserver | hserver
    · rw [hserver]
      exact .inr hclient
    · exact .inr (Nat.lt_trans hserver hclient)

/-! ## Runs -/

variable (requests responses service peers)

/-- Whatever somebody does short of giving up changes nothing. -/
def AtRest [DecidableEq ι] (c : Composite ι (Connection ρ τ) (Daemon ι S α ρ τ)) : Prop :=
  ∀ e : ι × Event α, e.2.isFailure = false →
    advance (move requests responses service peers) c e = c

/-- Number of the bytes that are sent to the daemon. -/
def size : Peer ρ → Nat
  | .client request =>
      match encodeRequest requests request with
      | .ok bytes => bytes.length
      | .error _ => 0
  | .other bytes => bytes.length

/-- The client has finished, with the answer to its request. -/
def Completed (i : ι) (request : Envelope ρ) (log : List (Entry ι α ρ τ)) (client : ClientPhase τ) :
    Prop :=
  match encodeRequest requests request with
  | .ok _ => ∃ body, Dealt i request log body ∧ client = .finished (outcome responses request body)
  | .error error => client = .finished (.error (.protocol error))

variable {requests responses service peers}

/-- Every move leaves a stage. -/
theorem Stage.move (hrequests : requests.Lawful) (hresponses : responses.Lawful)
    (hline : encodeRequest requests request = .ok line) (hpeer : peers i = .client request)
    (h : Stage responses i request line d.log c) {e : Event α} (he : e.isFailure = false) :
    Stage responses i request line (move requests responses service peers i c d e).2.log
      (move requests responses service peers i c d e).1 := by
  unfold Connections.move
  rw [hpeer]
  exact (h.clientMove hresponses he).serverMove hrequests hresponses hline he

/-- The stages are an invariant of each connection, which the others do not disturb. -/
theorem stage_compositional (service : HalquenService S α ρ τ) (hrequests : requests.Lawful)
    (hresponses : responses.Lawful) :
    Compositional (move requests responses service peers)
      (fun e : Event α => e.isFailure = false) (fun _ : Daemon ι S α ρ τ => True)
      (fun i c d => ∀ request line, peers i = .client request →
        encodeRequest requests request = .ok line → Stage responses i request line d.log c)
      Adds where
  shared _ _ _ _ _ _ _ := trivial
  own _ _ _ _ he _ hstage request line hpeer hline :=
    (hstage request line hpeer hline).move hrequests hresponses hline hpeer he
  guarantee _ _ _ e _ _ _ := adds_serverMove e
  stable _ _ _ _ _ _ hadds hstage request line hpeer hline :=
    (hstage request line hpeer hline).adds hadds

/-- So every connection of a client is in a stage, in every reached state. -/
theorem reached_stage [DecidableEq ι] (hrequests : requests.Lawful) (hresponses : responses.Lawful)
    (s₀ : S) {events : List (ι × Event α)} (hevents : ∀ e ∈ events, e.2.isFailure = false)
    (hpeer : peers i = .client request) (hline : encodeRequest requests request = .ok line) :
    Stage responses i request line
      (reached requests responses service peers s₀ events).shared.log
      ((reached requests responses service peers s₀ events).component i) := by
  refine (run_compositional (c := initial requests peers s₀)
    (stage_compositional service hrequests hresponses) trivial ?_ hevents).2 i request line hpeer
    hline
  intro j request' line' hpeer' hline'
  have hstart : start (τ := τ) requests (peers j) = .writing line' := by
    rw [hpeer', start, hline']
  unfold initial
  dsimp only
  rw [hstart]
  exact .sending line' [] [] rfl (line_of_encode hrequests hline').ne_nil

/-- At rest no move without failure changes anything. -/
theorem move_of_atRest [DecidableEq ι] {c : Composite ι (Connection ρ τ) (Daemon ι S α ρ τ)}
    (h : AtRest requests responses service peers c) (i : ι) {e : Event α}
    (he : e.isFailure = false) :
    (move requests responses service peers i (c.component i) c.shared e).1 = c.component i := by
  have hself := advance_self (move requests responses service peers) c (i, e)
  rw [h (i, e) he] at hself
  exact hself.symm

/-- Where both ends of every connection are done, nothing is left to do. -/
theorem atRest_of_ended [DecidableEq ι] {c : Composite ι (Connection ρ τ) (Daemon ι S α ρ τ)}
    (hended : ∀ i, ∃ outcome result, (c.component i).client = .finished outcome ∧
      (c.component i).server = .closed result) :
    AtRest requests responses service peers c := by
  intro e _
  obtain ⟨outcome, result, hclient, hserver⟩ := hended e.1
  have hmove : move requests responses service peers e.1 (c.component e.1) c.shared e.2 =
      (c.component e.1, c.shared) := by
    generalize c.component e.1 = connection at *
    obtain ⟨client, server, up, down⟩ := connection
    dsimp only at hclient hserver
    subst hclient hserver
    unfold Connections.move
    rw [clientMove_finished]
    cases e.2 <;> rfl
  exact advance_of_still _ c e hmove

theorem clientPotential_start (requests : Serde (Envelope ρ)) (peer : Peer ρ) :
    clientPotential (start requests peer : ClientPhase τ) ≤ 2 * size requests peer + 3 := by
  cases peer with
  | client request =>
      unfold start size
      dsimp only
      cases encodeRequest requests request with
      | ok bytes => exact Nat.le_refl _
      | error error => exact Nat.zero_le _
  | other bytes => exact Nat.le_refl _

/-- At first the potential is bounded by the length of the request and the largest frame. -/
theorem potential_initial [DecidableEq ι] (peers : ι → Peer ρ) (s₀ : S) (i : ι) :
    potential ((initial requests peers s₀ :
      Composite ι (Connection ρ τ) (Daemon ι S α ρ τ)).component i) ≤
      2 * size requests (peers i) + (2 * maxFrameSize + 8) := by
  have hstart := clientPotential_start (τ := τ) requests (peers i)
  simp only [initial, potential, serverPotential, List.length_nil]
  omega

/-- Progress, in every order of the steps: each connection takes a bounded number of steps that
change anything, and where nobody has given up and nothing is left to do, every client has
finished. -/
theorem connections_progress [DecidableEq ι] [Nonempty α] (hrequests : requests.Lawful)
    (hresponses : responses.Lawful) (service : HalquenService S α ρ τ) (peers : ι → Peer ρ) (s₀ : S)
    (events : List (ι × Event α)) :
    (∀ i, effective (move requests responses service peers) i (initial requests peers s₀) events ≤
      2 * size requests (peers i) + (2 * maxFrameSize + 8)) ∧
    ((∀ e ∈ events, e.2.isFailure = false) →
      AtRest requests responses service peers (reached requests responses service peers s₀ events) →
      ∀ i request, peers i = .client request →
        Completed requests responses i request
          (reached requests responses service peers s₀ events).shared.log
          ((reached requests responses service peers s₀ events).component i).client) := by
  refine ⟨fun i => ?_, fun hevents hrest i request hpeer => ?_⟩
  · exact Nat.le_trans (effective_le (fun i c d e => move_cases i c d e) i _ events)
      (potential_initial peers s₀ i)
  · unfold Completed
    cases hencode : encodeRequest requests request with
    | ok line =>
        exact (reached_stage hrequests hresponses s₀ hevents hpeer hencode).finished_of_rest
          hrequests hencode hpeer fun e he => move_of_atRest hrest i he
    | error error =>
        obtain ⟨-, hsound⟩ := reached_sound hrequests hresponses service peers s₀ events
        exact ((hsound i).refused request error hpeer hencode).client

end

theorem connections_progress_health :
    AtRest healthRequests healthResponses healthService
        (fun _ : Fin 2 => .client healthRequest) healthRun ∧
      ∀ i, Completed healthRequests healthResponses i healthRequest healthRun.shared.log
        (healthRun.component i).client := by
  have hrest : AtRest healthRequests healthResponses healthService
      (fun _ : Fin 2 => .client healthRequest) healthRun :=
    atRest_of_ended fun i => ⟨_, _, healthRun_ended i⟩
  have hprogress := (connections_progress healthRequests_lawful healthResponses_lawful
    healthService (fun _ : Fin 2 => .client healthRequest) 0 healthEvents).2 (by decide) hrest
  exact ⟨hrest, fun i => hprogress i healthRequest rfl⟩

end Halquen.Service.ConnectionProgress
