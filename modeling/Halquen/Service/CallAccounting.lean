import Halquen.Domain.GeneratedIds
import Halquen.Service.RequestIsolation

/-!
# Accounting of model calls

A call of the provider is paid for before its reply is stored, and each step after it can refuse the
reply: the cache takes no candidate with a long response or an empty normalised request, and the
table of the messages no long answer. `paid_call_accounted` says for which replies the call is
counted and answered, and what is left of it otherwise.

The identifiers that the service generates are taken to be new (`NewIdentifiers`), and the counters
to have room (`HasRoom`).
-/

set_option autoImplicit false

namespace Halquen.Service.CallAccounting

open Halquen.Domain.Ids Halquen.Domain.Capability Halquen.Domain.Gateway
open Halquen.Domain.Interaction Halquen.Protocol.Messages
open Halquen.Ai.Context Halquen.Ai.Prompt Halquen.Ai.Provider Halquen.Ai.Router
open Halquen.Library.Action Halquen.Library.Action.Act Halquen.Library.Listing
open Halquen.Library.Sql
open Halquen.Service.ChatParser Halquen.Service.Fallback Halquen.Service.Gateway
open Halquen.Service.ModelCalls
open Halquen.Service.Providers (sanitizedAiError)
open Halquen.Service.State (Failure internalError)
open Halquen.Storage.Grants (StorageError)
open Halquen.Storage.Conversations Halquen.Storage.Interaction Halquen.Storage.Labels
open Halquen.Storage.Agents (between)
open Halquen.Storage.Operations
open Halquen.Storage.Providers Halquen.Storage.ResponseCache Halquen.Storage.Sqlite

/-! ## New identifiers -/

/-- The tables of the interaction. -/
abbrev stored (s : GatewayState) : InteractionTables := s.tables.database.interaction

/-- These identifiers of one kind are the old ones and some that were generated since. -/
def Grown (E : Environment) {kind : GeneratedKind} (lo hi : Nat)
    (old new : List (TypedId (.generated kind))) : Prop :=
  ∀ id ∈ new, id ∈ old ∨ ∃ k, lo ≤ k ∧ k < hi ∧ id = .generate kind (E.stamp k)

/-- Identifiers that are generated from now on, before the consultation `hi`, are not in use and
differ from each other. -/
structure NewIdentifiers (E : Environment) (s : GatewayState) (hi : Nat) : Prop where
  messages : ∀ k, s.consulted ≤ k → k < hi →
    .generate .chatMessage (E.stamp k) ∉ (stored s).chatMessages.map ChatMessage.id
  events : ∀ k, s.consulted ≤ k → k < hi →
    .generate .activity (E.stamp k) ∉ (stored s).activityEvents.map ActivityEvent.id
  entries : ∀ k, s.consulted ≤ k → k < hi →
    .generate .cacheEntry (E.stamp k) ∉ s.tables.responseCache.map CacheRow.id
  distinct : ∀ (kind : GeneratedKind) (j k : Nat), s.consulted ≤ j → j < k → k < hi →
    TypedId.generate kind (E.stamp j) ≠ .generate kind (E.stamp k)

/-- Steps that carry on the consultations, and add rows under identifiers that they generate. -/
structure Progress (E : Environment) (s s' : GatewayState) : Prop where
  consulted : s.consulted ≤ s'.consulted
  messages : Grown E s.consulted s'.consulted ((stored s).chatMessages.map ChatMessage.id)
    ((stored s').chatMessages.map ChatMessage.id)
  events : Grown E s.consulted s'.consulted ((stored s).activityEvents.map ActivityEvent.id)
    ((stored s').activityEvents.map ActivityEvent.id)
  entries : Grown E s.consulted s'.consulted (s.tables.responseCache.map CacheRow.id)
    (s'.tables.responseCache.map CacheRow.id)

section

variable {E : Environment} {kind : GeneratedKind} {lo mid hi : Nat}
  {old between new : List (TypedId (.generated kind))}

theorem grown_refl (E : Environment) (lo hi : Nat) (old : List (TypedId (.generated kind))) :
    Grown E lo hi old old := fun _ hid => .inl hid

/-- Identifiers that are new in two steps are new. -/
theorem Grown.trans (h : Grown E lo mid old between) (h' : Grown E mid hi between new)
    (hlo : lo ≤ mid) (hhi : mid ≤ hi) : Grown E lo hi old new := by
  intro id hid
  rcases h' id hid with hmem | ⟨k, hk, hk', heq⟩
  · rcases h id hmem with hmem | ⟨k, hk, hk', heq⟩
    · exact .inl hmem
    · exact .inr ⟨k, hk, Nat.lt_of_lt_of_le hk' hhi, heq⟩
  · exact .inr ⟨k, Nat.le_trans hlo hk, hk', heq⟩

theorem grown_append (hlo : lo < hi) (old : List (TypedId (.generated kind))) :
    Grown E lo hi old (old ++ [.generate kind (E.stamp lo)]) := by
  intro id hid
  rcases List.mem_append.mp hid with hmem | hmem
  · exact .inl hmem
  · exact .inr ⟨lo, Nat.le_refl lo, hlo, List.mem_singleton.mp hmem⟩

/-- What has been generated since differs from what is generated next. -/
theorem Grown.notMem (h : Grown E lo mid old new) (hlo : lo ≤ mid)
    (hold : ∀ k, lo ≤ k → k < hi → .generate kind (E.stamp k) ∉ old)
    (hdistinct : ∀ j k, lo ≤ j → j < k → k < hi →
      TypedId.generate kind (E.stamp j) ≠ .generate kind (E.stamp k)) {k : Nat} (hk : mid ≤ k)
    (hk' : k < hi) : .generate kind (E.stamp k) ∉ new := by
  intro hmem
  rcases h _ hmem with hmem | ⟨j, hj, hj', heq⟩
  · exact hold k (Nat.le_trans hlo hk) hk' hmem
  · exact hdistinct j k hj (Nat.lt_of_lt_of_le hj' hk) hk' heq.symm

instance Progress.isPreorder (E : Environment) : IsPreorder GatewayState (Progress E) where
  refl _ := ⟨Nat.le_refl _, grown_refl _ _ _ _, grown_refl _ _ _ _, grown_refl _ _ _ _⟩
  trans _ _ _ h h' := ⟨Nat.le_trans h.consulted h'.consulted,
    h.messages.trans h'.messages h.consulted h'.consulted,
    h.events.trans h'.events h.consulted h'.consulted,
    h.entries.trans h'.entries h.consulted h'.consulted⟩

/-- What makes progress uses identifiers of its own interval. -/
theorem NewIdentifiers.progress {s s' : GatewayState} (h : NewIdentifiers E s hi)
    (hprogress : Progress E s s') : NewIdentifiers E s' hi where
  messages _ hk hk' :=
    hprogress.messages.notMem hprogress.consulted h.messages (h.distinct _) hk hk'
  events _ hk hk' := hprogress.events.notMem hprogress.consulted h.events (h.distinct _) hk hk'
  entries _ hk hk' := hprogress.entries.notMem hprogress.consulted h.entries (h.distinct _) hk hk'
  distinct kind j k hj hjk hk := h.distinct kind j k (Nat.le_trans hprogress.consulted hj) hjk hk

/-- Consultations alone use no identifier. -/
theorem progress_consulted (E : Environment) (s : GatewayState) (n : Nat) :
    Progress E s { s with consulted := s.consulted + n } :=
  ⟨Nat.le_add_right _ _, grown_refl _ _ _ _, grown_refl _ _ _ _, grown_refl _ _ _ _⟩

end

/-! ## Steps before the reply -/

section

variable {E : Environment} {s : GatewayState}

theorem post_perform {operation : InteractionOperation}
    {Q : Except Failure Unit → GatewayState → Prop} :
    Post (Gateway.perform operation) s Q ↔ Post operation.perform s.tables fun r t =>
      Q (r.mapError fun _ => internalError) { s with tables := t } := Iff.rfl

/-- The event of an activity that starts at this consultation. -/
def eventOf (E : Environment) (sessionId : ChatSessionId) (correlationId : String)
    (kind : ActivityKind) (summary : String) (detail : Option String) (n : Nat) : ActivityEvent :=
  ⟨.generate .activity (E.stamp n), some sessionId, correlationId, kind, summary, detail,
    E.clock (n + 1)⟩

/-- The state after an activity. -/
def afterActivity (event : ActivityEvent) (s : GatewayState) : GatewayState :=
  { s with tables := withActivity event s.tables, consulted := s.consulted + 2 }

/-- An activity is recorded, unless the table refuses its event. -/
theorem activity_cases (sessionId : ChatSessionId) (correlationId : String) (kind : ActivityKind)
    (summary : String) (detail : Option String) :
    Post (activity E sessionId correlationId kind summary detail) s fun r s' =>
      s'.consulted = s.consulted + 2 ∧
      ((r = .ok () ∧
          Recordable (stored s)
            (eventOf E sessionId correlationId kind summary detail s.consulted) ∧
          s' =
            afterActivity (eventOf E sessionId correlationId kind summary detail s.consulted) s) ∨
        ((∃ e, r = .error e) ∧
          ¬ Recordable (stored s)
            (eventOf E sessionId correlationId kind summary detail s.consulted))) := by
  rw [activity, post_bind, post_generate, next_ok, post_bind, post_now, next_ok, post_perform]
  refine Post.mono (appendActivity_spec _ _) ?_
  rintro r t (⟨rfl, hrecordable, rfl⟩ | ⟨⟨e, rfl⟩, hnot⟩)
  · exact ⟨rfl, .inl ⟨rfl, hrecordable, rfl⟩⟩
  · exact ⟨rfl, .inr ⟨⟨_, rfl⟩, hnot⟩⟩

theorem progress_afterActivity {event : ActivityEvent}
    (hid : event.id = .generate .activity (E.stamp s.consulted)) :
    Progress E s (afterActivity event s) where
  consulted := Nat.le_add_right _ _
  messages := grown_refl _ _ _ _
  events := by
    have hgrown : Grown E s.consulted (s.consulted + 2)
        ((stored s).activityEvents.map ActivityEvent.id) _ :=
      grown_append (Nat.lt_add_of_pos_right Nat.two_pos) _
    rw [← hid] at hgrown
    simpa [afterActivity, withActivity, withInteraction] using hgrown
  entries := grown_refl _ _ _ _

/-- Steps before the reply leave the counters as they are. -/
structure Uncounted (E : Environment) (s s' : GatewayState) : Prop where
  progress : Progress E s s'
  usage : (stored s').usage = (stored s).usage

instance Uncounted.isPreorder (E : Environment) : IsPreorder GatewayState (Uncounted E) where
  refl s := ⟨refl_of (Progress E) s, rfl⟩
  trans _ _ _ h h' := ⟨trans_of (Progress E) h.progress h'.progress, h'.usage.trans h.usage⟩

/-- A line of the activity list counts nothing. -/
theorem activity_uncounted (sessionId : ChatSessionId) (correlationId : String)
    (kind : ActivityKind) (summary : String) (detail : Option String) :
    Returns (activity E sessionId correlationId kind summary detail) s fun _ s' =>
      Uncounted E s s' ∧ (stored s').chatMessages = (stored s).chatMessages ∧
      SameSettings s.tables s'.tables ∧ (stored s').chatSessions = (stored s).chatSessions ∧
      Recordable (stored s)
        (eventOf E sessionId correlationId kind summary detail s.consulted) := by
  refine Post.mono (activity_cases sessionId correlationId kind summary detail) ?_
  rintro r s' ⟨-, ⟨-, hrecordable, rfl⟩ | ⟨⟨e, rfl⟩, -⟩⟩ u hr
  · exact ⟨⟨progress_afterActivity rfl, rfl⟩, rfl, ⟨rfl, rfl, rfl⟩, rfl, hrecordable⟩
  · cases hr

/-- Nor does receiving a message. -/
theorem receive_uncounted (request : ChatRequest) (correlationId : String) :
    Returns (receive E request correlationId) s fun received s' =>
      Uncounted E s s' ∧
      (stored s').chatMessages = (stored s).chatMessages ++ [received.2] := by
  simp only [receive, returns_bind, returns_require, returns_now, returns_generate, returns_query,
    returns_perform, returns_onInteraction]
  intro _
  refine Post.mono (ensureChatSession_spec request.sessionId _ _ _
    s.tables.database.interaction) ?_
  rintro _ rows hsession session rfl
  -- A session that is made for the message brings neither messages nor usage.
  have hrows : rows.chatMessages = (stored s).chatMessages ∧
      rows.activityEvents = (stored s).activityEvents ∧ rows.usage = (stored s).usage := by
    rcases hsession with ⟨-, -, rfl⟩ | ⟨-, -, -, rfl⟩ <;> exact ⟨rfl, rfl, rfl⟩
  refine Post.mono (appendMessage_spec _ _) ?_
  rintro r t (⟨-, -, rfl⟩ | ⟨⟨e, rfl⟩, -⟩) u hr
  -- The message is stored, and an activity is reported of it.
  · refine (activity_uncounted session.id correlationId _ _ _).mono ?_
    rintro - s' ⟨⟨hprogress, husage⟩, hmessages, -, -, -⟩
    rw [returns_pure]
    refine ⟨⟨trans_of (Progress E) ⟨?_, ?_, ?_, ?_⟩ hprogress, husage.trans hrows.2.2⟩,
      hmessages.trans (congrArg (· ++ [_]) hrows.1)⟩
    · exact Nat.le_add_right _ 3
    · intro id hid
      obtain ⟨message, hmessage, rfl⟩ := List.mem_map.mp hid
      rcases List.mem_append.mp hmessage with hold | hnew
      · exact .inl (List.mem_map_of_mem (hrows.1 ▸ hold))
      · refine .inr ⟨s.consulted + 2, Nat.le_add_right _ _, Nat.lt_succ_self _, ?_⟩
        rw [List.mem_singleton.mp hnew]
        rfl
    · change Grown E _ _ _ (rows.activityEvents.map _)
      rw [hrows.2.1]
      exact grown_refl _ _ _ _
    · exact grown_refl _ _ _ _
  · cases hr

/-- Consultations are only carried on. -/
def Ahead (s s' : GatewayState) : Prop := s.consulted ≤ s'.consulted

instance Ahead.isPreorder : IsPreorder GatewayState Ahead where
  refl s := Nat.le_refl s.consulted
  trans _ _ _ h h' := Nat.le_trans h h'

/-- Every step asks the environment ahead. -/
theorem ahead_steps : KeptBySteps Ahead where
  consult _ s := Nat.le_succ s.consulted
  read _ s := Nat.le_refl s.consulted
  perform _ s := Nat.le_refl s.consulted
  session _ _ _ _ s := Nat.le_refl s.consulted

theorem progress_of_tables {s' : GatewayState} (htables : s'.tables = s.tables)
    (hconsulted : s.consulted ≤ s'.consulted) : Progress E s s' := by
  refine ⟨hconsulted, ?_, ?_, ?_⟩
  all_goals
    simp only [stored, htables]
    exact grown_refl _ _ _ _

/-- Preparing a call counts nothing. -/
theorem prepare_uncounted (selection : ModelSelection) (session : ChatSession)
    (userMessage : ChatMessage) :
    Returns (prepare E selection session userMessage) s fun outcome s' =>
      Uncounted E s s' ∧ s'.tables = s.tables ∧
      Prepares s.tables selection session userMessage outcome := by
  have hahead : Post (prepare E selection session userMessage) s fun _ s' => Ahead s s' :=
    (ahead_steps.prepare selection session userMessage).post s
  refine ((prepare_spec E selection session userMessage s).and fun _ _ => hahead).mono ?_
  rintro outcome s' ⟨⟨htables, -, hprepared⟩, hconsulted⟩
  refine ⟨⟨progress_of_tables htables hconsulted, ?_⟩, htables, hprepared⟩
  simp only [stored, htables]

end

/-! ## Counters -/

/-- The columns of the usage table. -/
def columns (usage : UsageStats) : List UInt64 :=
  [usage.modelRequests, usage.inputTokens, usage.outputTokens, usage.cachedTokens,
    usage.aiFallbacks, usage.localResolutions, usage.responseCacheHits, usage.clarifications,
    usage.failedProviderCalls, usage.estimatedTokensAvoided]

/-- Counters after an addition. -/
def plus (usage delta : UsageStats) : UsageStats where
  modelRequests := usage.modelRequests + delta.modelRequests
  inputTokens := usage.inputTokens + delta.inputTokens
  outputTokens := usage.outputTokens + delta.outputTokens
  cachedTokens := usage.cachedTokens + delta.cachedTokens
  aiFallbacks := usage.aiFallbacks + delta.aiFallbacks
  localResolutions := usage.localResolutions + delta.localResolutions
  responseCacheHits := usage.responseCacheHits + delta.responseCacheHits
  clarifications := usage.clarifications + delta.clarifications
  failedProviderCalls := usage.failedProviderCalls + delta.failedProviderCalls
  estimatedTokensAvoided := usage.estimatedTokensAvoided + delta.estimatedTokensAvoided

/-- No sum leaves the range of a column. -/
def HasRoom (usage delta : UsageStats) : Prop :=
  ∀ pair ∈ (columns usage).zip (columns delta), (pair.1.toNat : Int) + pair.2.toNat ≤ maxTime

/-- A new database has room for any usage that fits its columns. -/
theorem hasRoom_zero {delta : UsageStats} (h : (columns delta).all fitsColumn = true) :
    HasRoom .zero delta := by
  intro pair hpair
  obtain ⟨hleft, hright⟩ := List.of_mem_zip hpair
  have hzero : pair.1 = 0 := by simpa [columns, UsageStats.zero] using hleft
  have hfits := List.all_eq_true.mp h _ hright
  rw [fitsColumn, decide_eq_true_eq] at hfits
  rw [hzero]
  simpa using hfits

/-- The tables with changed counters. -/
def withUsage (usage : UsageStats) (t : Tables) : Tables :=
  withInteraction t { t.database.interaction with usage := usage }

/-- Usage is added if it fits and there is room. -/
theorem perform_addUsage {delta : UsageStats} {t : Tables}
    (hfits : (columns delta).all fitsColumn = true)
    (hroom : HasRoom t.database.interaction.usage delta) :
    (InteractionOperation.addUsage delta).perform t =
      (.ok (), withUsage (plus t.database.interaction.usage delta) t) := by
  have hsums : ((columns t.database.interaction.usage).zip (columns delta)).all (fun pair =>
      decide ((pair.1.toNat : Int) + pair.2.toNat ≤ maxTime)) = true :=
    List.all_eq_true.mpr fun pair hpair => decide_eq_true (hroom pair hpair)
  have hpost : Post (InteractionOperation.addUsage delta).perform t fun r t' =>
      (r, t') = (.ok (), withUsage (plus t.database.interaction.usage delta) t) := by
    rw [InteractionOperation.perform, post_onDatabase, post_onInteraction, addUsage, post_bind,
      post_require]
    refine ⟨fun _ => ?_, fun h => absurd hfits (Bool.eq_false_iff.mp h)⟩
    rw [next_ok, post_bind, post_gets, next_ok, post_bind, post_require]
    exact ⟨fun _ => rfl, fun h => absurd hsums (Bool.eq_false_iff.mp h)⟩
  exact hpost

/-! ## Replies -/

/-- A text for a column with this bound. The schema counts the characters before the first NUL, and
requires one. -/
structure Fits (text : String) (bound : Nat) : Prop where
  nonempty : text ≠ ""
  size : text.utf8ByteSize ≤ bound
  start : text.toList.head? ≠ some (Char.ofNat 0)

theorem length_le_utf8ByteSize (cs : List Char) : cs.length ≤ (String.ofList cs).utf8ByteSize := by
  induction cs with
  | nil => exact Nat.zero_le _
  | cons c cs ih =>
      have hc := c.utf8Size_pos
      rw [String.ofList_cons, String.utf8ByteSize_append, String.utf8ByteSize_singleton,
        List.length_cons]
      omega

theorem fits_iff {text : String} {bound : Nat} :
    Fits text bound ↔ (text != "" && decide (text.utf8ByteSize ≤ bound)) = true ∧
      lengthWithin text bound = true := by
  rw [lengthWithin, Bool.and_eq_true, Bool.and_eq_true, bne_iff_ne, decide_eq_true_eq,
    decide_eq_true_eq, decide_eq_true_eq]
  have hlength : sqlLength text ≤ text.utf8ByteSize := by
    have hbytes := length_le_utf8ByteSize text.toList
    rw [String.ofList_toList] at hbytes
    exact Nat.le_trans (List.takeWhile_sublist _).length_le hbytes
  have hstart : 1 ≤ sqlLength text ↔ text ≠ "" ∧ text.toList.head? ≠ some (Char.ofNat 0) := by
    have hnil : text ≠ "" ↔ text.toList ≠ [] := String.toList_eq_nil_iff.not.symm
    rw [sqlLength, hnil]
    cases text.toList with
    | nil => simp
    | cons c cs => by_cases hc : c = Char.ofNat 0 <;> simp [hc]
  constructor
  · intro h
    exact ⟨⟨h.nonempty, h.size⟩, hstart.mpr ⟨h.nonempty, h.start⟩, Nat.le_trans hlength h.size⟩
  · rintro ⟨⟨hne, hsize⟩, hpos, -⟩
    exact ⟨hne, hsize, (hstart.mp hpos).2⟩

/-- What is counted for a reply. -/
def costOf : Except AiError AiResponse → UsageStats
  | .ok response => usageOf response.usage
  | .error _ => failedUsage

/-- What the user is shown of a reply. -/
def answerOf : Except AiError AiResponse → String
  | .ok response => response.content
  | .error error => "AI is currently unavailable. " ++ sanitizedAiError error

/-- What the cache is asked to keep of a reply. -/
structure Candidate (E : Environment) (message : String) (response : AiResponse) : Prop where
  request : Fits (String.ofList (normalizeRequest E.texts message.toList)) 4096
  response : Fits response.content 65536

/-- The reply can be stored: as an answer, and as a candidate where the request had no context. -/
def Keepable (E : Environment) (message : String) (request : AiRequest) :
    Except AiError AiResponse → Prop
  | .ok response => Fits response.content 65536 ∧
      (request.context = [] → Candidate E message response)
  | .error _ => True

theorem costOf_error (error : AiError) : costOf (.error error) = failedUsage := rfl

theorem answerOf_error (error : AiError) :
    answerOf (.error error) = "AI is currently unavailable. " ++ sanitizedAiError error := rfl

theorem columns_failedUsage : (columns failedUsage).all fitsColumn = true := by decide

/-- The cost of a call fits the columns. -/
theorem columns_costOf (reply : Except AiError AiResponse) :
    (columns (costOf reply)).all fitsColumn = true := by
  have htoken : ∀ n : UInt32, fitsColumn n.toUInt64 = true := by
    intro n
    have hlt := n.toNat_lt
    rw [fitsColumn, decide_eq_true_eq, UInt32.toNat_toUInt64, maxTime]
    omega
  cases reply with
  | error e => exact columns_failedUsage
  | ok response =>
      simp only [columns, costOf, usageOf, List.all_cons, List.all_nil, htoken]
      decide

/-! ## The candidate -/

section

variable {E : Environment} {s : GatewayState} {prepared : Prepared} {session : ChatSession}
  {userMessage : ChatMessage} {response : AiResponse} {correlationId : String} {hi : Nat}

/-- The bounds of a candidate and the checks of its columns ask the same of it. -/
theorem candidate_iff (prepared : Prepared) (id : CacheEntryId) (createdAtMs : Int) :
    Candidate E userMessage.content response ↔
      (let entry := responseCandidate E id prepared userMessage response createdAtMs
      (entry.normalizedRequest != "" && decide (entry.normalizedRequest.utf8ByteSize ≤ 4096)
        && entry.response != "" && decide (entry.response.utf8ByteSize ≤ 65536)
        && entry.contextKey != "" && decide (entry.contextKey.utf8ByteSize ≤ 512)
        && decide (entry.confidencePermille ≤ 1000)
        && decide (entry.priorityPermille ≤ 1000)) = true ∧
      (CacheRow.ofEntry entry).checks = true) := by
  have hcontext : lengthWithin "global" 512 = true ∧ ("global" != "") = true ∧
      decide ("global".utf8ByteSize ≤ 512) = true := by decide
  simp only [responseCandidate, CacheRow.ofEntry, CacheRow.checks, Bool.and_eq_true, hcontext]
  constructor
  · intro h
    obtain ⟨hrequest, hrequest'⟩ := fits_iff.mp h.request
    obtain ⟨hresponse, hresponse'⟩ := fits_iff.mp h.response
    rw [Bool.and_eq_true] at hrequest hresponse
    exact ⟨⟨⟨⟨⟨⟨⟨hrequest, hresponse.1⟩, hresponse.2⟩, trivial⟩, rfl⟩, rfl⟩, rfl⟩,
      ⟨⟨⟨hrequest', hresponse'⟩, trivial⟩, rfl⟩, rfl⟩
  · rintro ⟨⟨⟨⟨⟨⟨⟨hrequest, hresponse⟩, hsize⟩, -⟩, -⟩, -⟩, -⟩,
      ⟨⟨⟨hrequest', hresponse'⟩, -⟩, -⟩, -⟩
    exact ⟨fits_iff.mpr ⟨Bool.and_eq_true _ _ ▸ hrequest, hrequest'⟩,
      fits_iff.mpr ⟨(Bool.and_eq_true _ _).mpr ⟨hresponse, hsize⟩, hresponse'⟩⟩

/-- A row with a new identifier is placed. -/
theorem placeRow_of_fresh {row : CacheRow} {rows : List CacheRow}
    (hnew : row.id ∉ rows.map CacheRow.id) :
    placeRow row rows = some (upsertRow CacheRow.slot row (fun _ => row) rows) := by
  refine if_neg fun hused => ?_
  obtain ⟨old, hold, hid⟩ := List.any_eq_true.mp hused
  rw [Bool.and_eq_true, beq_iff_eq] at hid
  exact hnew (List.mem_map.mpr ⟨old, hold, hid.2⟩)

/-- A candidate under a new identifier is stored if and only if it fits its columns. -/
theorem perform_candidate {t : Tables} {id : CacheEntryId} {createdAtMs : Int}
    (hreferenced : references t (some prepared.provider.id) (some prepared.model.id) = true)
    (hnew : id ∉ t.responseCache.map CacheRow.id) :
    Post (InteractionOperation.storeResponseCandidate
        (responseCandidate E id prepared userMessage response createdAtMs)).perform t fun r t' =>
      (r = .ok () ∧ Candidate E userMessage.content response ∧
        ∃ rows, t' = { t with responseCache := rows } ∧
          ∀ row ∈ rows, row.id ∈ t.responseCache.map CacheRow.id ∨ row.id = id) ∨
      ((∃ e, r = .error e) ∧ ¬ Candidate E userMessage.content response ∧ t' = t) := by
  -- The counters of the cache are part of the usage and come back as they were.
  have hsame : ∀ rows, { t with
      responseCache := rows
      database := { t.database with
        interaction := { t.database.interaction with
          usage := { t.database.interaction.usage with
            responseCacheHits := .ofNat (cacheTables t).responseCacheHits.toNat
            estimatedTokensAvoided := .ofNat (cacheTables t).estimatedTokensAvoided.toNat } } } } =
      { t with responseCache := rows } := by
    intro rows
    simp [cacheTables]
  rw [InteractionOperation.perform, post_bind, post_gets, next_ok, onCache, post_within,
    storeResponseCandidate, post_bind, post_require, candidate_iff prepared id createdAtMs]
  constructor
  · intro hbounds
    rw [next_ok, post_bind, post_require]
    refine ⟨fun _ => ?_, fun hfits => absurd hfits (by simp [responseCandidate]; decide)⟩
    rw [next_ok, post_bind, post_require]
    constructor
    · intro hchecks
      rw [Bool.and_eq_true] at hchecks
      rw [next_ok, post_bind, post_gets, next_ok, post_bind]
      -- The row stands under a new identifier, or replaces one of its slot.
      have hplace : placeRow (CacheRow.ofEntry (responseCandidate E id prepared userMessage response
          createdAtMs)) t.responseCache = some _ := placeRow_of_fresh hnew
      rw [show (cacheTables t).responseCache = t.responseCache from rfl, hplace]
      refine .inl ⟨rfl, ⟨hbounds, hchecks.1⟩, _, hsame _, ?_⟩
      intro row hrow
      rcases mem_upsertRow hrow with ⟨hmem, -⟩ | ⟨-, -, -, rfl⟩ | ⟨rfl, -⟩
      · exact .inl (List.mem_map_of_mem hmem)
      · exact .inr rfl
      · exact .inr rfl
    · intro hchecks
      refine .inr ⟨⟨_, rfl⟩, ?_, hsame _⟩
      rintro ⟨-, hok⟩
      rw [hok, responseCandidate, hreferenced] at hchecks
      cases hchecks
  · intro hbounds
    refine .inr ⟨⟨_, rfl⟩, ?_, hsame _⟩
    rintro ⟨hok, -⟩
    rw [hok] at hbounds
    cases hbounds

/-! ## After the reply -/

/-- What holds of a computation, as long as it does not consult the environment beyond `hi`. -/
def PostBefore (hi : Nat) {α : Type} (m : Gateway.Operation α) (s : GatewayState)
    (Q : Except Failure α → GatewayState → Prop) : Prop :=
  Post m s fun r s' => s'.consulted ≤ hi → Q r s'

/-- A postcondition may be weakened. -/
theorem PostBefore.mono {α : Type} {m : Gateway.Operation α}
    {Q R : Except Failure α → GatewayState → Prop} (h : PostBefore hi m s Q)
    (hQR : ∀ r s', Q r s' → R r s') : PostBefore hi m s R :=
  Post.mono h fun r s' hQ hlt => hQR r s' (hQ hlt)

/-- The rule of sequencing, for what is asked before a bound. -/
theorem PostBefore.bind {α β : Type} {m : Gateway.Operation α} {f : α → Gateway.Operation β}
    {Q : Except Failure α → GatewayState → Prop} {P : Except Failure β → GatewayState → Prop}
    (hm : PostBefore hi m s Q) (hf : ∀ a, Keeps Ahead (f a))
    (hok : ∀ a s', s'.consulted ≤ hi → Q (.ok a) s' → PostBefore hi (f a) s' P)
    (herror : ∀ e s', Q (.error e) s' → P (.error e) s') : PostBefore hi (m >>= f) s P := by
  refine Post.bind hm (fun a s' hQ => ?_) fun e s' hQ hlt => herror e s' (hQ hlt)
  have hahead := (hf a).post s'
  exact fun hlt => hok a s' (Nat.le_trans hahead hlt) (hQ (Nat.le_trans hahead hlt)) hlt

/-- A call was made for a stored message, and nothing of what is needed to store its answer is
missing but the answer itself. -/
structure Ready (E : Environment) (prepared : Prepared) (session : ChatSession)
    (correlationId : String) (hi : Nat) (s : GatewayState) : Prop where
  fresh : NewIdentifiers E s hi
  elapsed : ∀ k, fitsColumn (E.elapsedMs k) = true
  session : (stored s).chatSessions.any (fun row => row.id == session.id) = true
  correlation : (correlationId != "" && decide (correlationId.utf8ByteSize ≤ 128)) = true
  column : lengthWithin correlationId 128 = true
  referenced : references s.tables (some prepared.provider.id) (some prepared.model.id) = true

/-- What is ready stays ready while other tables change. -/
theorem Ready.progress (h : Ready E prepared session correlationId hi s) {s' : GatewayState}
    (hprogress : Progress E s s') (hsessions : (stored s').chatSessions = (stored s).chatSessions)
    (hproviders : s'.tables.providers = s.tables.providers)
    (hmodels : s'.tables.models = s.tables.models) :
    Ready E prepared session correlationId hi s' where
  fresh := h.fresh.progress hprogress
  elapsed := h.elapsed
  session := hsessions ▸ h.session
  correlation := h.correlation
  column := h.column
  referenced := by
    have href := h.referenced
    unfold references at href ⊢
    rw [hproviders, hmodels]
    exact href

/-- An event with short texts is recorded. -/
theorem Ready.recordable (h : Ready E prepared session correlationId hi s) (hlt : s.consulted < hi)
    {summary : String} {detail : Option String} (kind : ActivityKind)
    (hsummary : (!isBlank summary && decide (summary.utf8ByteSize ≤ 1024)
      && lengthWithin summary 1024) = true)
    (hdetail : (detail.all fun value => decide (value.utf8ByteSize ≤ 4096)) = true) :
    Recordable (stored s) (eventOf E session.id correlationId kind summary detail s.consulted) where
  bounds := by
    have hcorrelation := h.correlation
    simp only [eventOf, Bool.and_eq_true] at hcorrelation hsummary ⊢
    exact ⟨⟨⟨hcorrelation, hsummary.1.1⟩, hsummary.1.2⟩, hdetail⟩
  columns := by
    rw [Bool.and_eq_true] at hsummary
    simp only [eventOf, Option.all_some, Bool.and_eq_true]
    exact ⟨⟨h.session, h.column⟩, hsummary.2⟩
  fresh other hother hid :=
    h.fresh.events s.consulted (Nat.le_refl _) hlt (List.mem_map.mpr ⟨other, hother, hid⟩)

/-- The answer is stored at the end of the messages, and the counters have these values. -/
def Answered (messages : List ChatMessage) (usage : UsageStats) (session : ChatSession)
    (userMessage : ChatMessage) (content : String) (r : Except Failure ChatResult)
    (s' : GatewayState) : Prop :=
  ∃ assistant, r = .ok ⟨session, userMessage, assistant, none⟩ ∧ assistant.role = .assistant ∧
    assistant.content = content ∧ (stored s').chatMessages = messages ++ [assistant] ∧
    (stored s').usage = usage

/-- The request ends with an error, no answer is stored, and the counters have these values. -/
def Lost (messages : List ChatMessage) (usage : UsageStats) {α : Type} (r : Except Failure α)
    (s' : GatewayState) : Prop :=
  r = .error internalError ∧ (stored s').chatMessages = messages ∧ (stored s').usage = usage

/-- An answer is stored if and only if it fits its column. -/
theorem Ready.answer (h : Ready E prepared session correlationId hi s) {content : String}
    (hblank : isBlank content = false) (userMessage : ChatMessage) (origin : ChatOrigin)
    (route : ChatRoute) (usage : Option AiUsage) (candidateId : Option CacheEntryId) :
    PostBefore hi (do
        let message ← assistantMessage E session.id content origin route
          (usage.map fun usage => (prepared.provider, prepared.model, usage)) candidateId
        finishChat session userMessage message) s fun r s' =>
      (Fits content 65536 → Answered (stored s).chatMessages (stored s).usage session userMessage
        content r s') ∧
      (¬ Fits content 65536 → Lost (stored s).chatMessages (stored s).usage r s') := by
  have hne : content ≠ "" := by
    rintro rfl
    cases hblank
  rw [PostBefore, assistantMessage]
  simp only [post_bind, post_generate, next_ok, post_consult, post_now, post_pure, finishChat,
    post_perform]
  -- The answer is stored, or refused and then too long or not storable as text.
  refine Post.mono (appendMessage_spec _ _) ?_
  rintro r t (⟨rfl, haccepted, rfl⟩ | ⟨⟨e, rfl⟩, hrefused, rfl⟩)
  · intro _
    refine ⟨fun _ => ⟨_, rfl, rfl, rfl, rfl, rfl⟩, fun hnot => absurd ?_ hnot⟩
    have hcontent := haccepted.storable.content
    rw [Bool.and_eq_true, decide_eq_true_eq] at hcontent
    exact fits_iff.mpr ⟨by simp [hne, hcontent.2], haccepted.storable.column⟩
  · intro (hlt : s.consulted + 1 + 1 + 1 ≤ hi)
    refine ⟨fun hfits => absurd ?_ hrefused, fun _ => ⟨rfl, rfl, rfl⟩⟩
    refine ⟨⟨?_, h.elapsed _, h.session, (fits_iff.mp hfits).2, ?_⟩, ?_⟩
    · rw [Bool.and_eq_true, decide_eq_true_eq]
      exact ⟨by rw [hblank]; rfl, hfits.size⟩
    · intro other hother hid
      exact h.fresh.messages s.consulted (Nat.le_refl _) (by omega)
        (List.mem_map.mpr ⟨other, hother, hid⟩)
    · cases usage with
      | none => rfl
      | some usage => exact h.referenced

/-- The state after an addition to the counters. -/
def counted (delta : UsageStats) (s : GatewayState) : GatewayState :=
  { s with tables := withUsage (plus (stored s).usage delta) s.tables }

theorem keepsAhead_answer (sessionId : ChatSessionId) (content : String) (origin : ChatOrigin)
    (route : ChatRoute) (used : Option (Domain.Gateway.Provider × AiModel × AiUsage))
    (candidateId : Option CacheEntryId) :
    Keeps Ahead (do
      let message ← assistantMessage E sessionId content origin route used candidateId
      finishChat session userMessage message) :=
  (ahead_steps.assistantMessage _ _ _ _ _ _).bind fun _ => ahead_steps.finishChat _ _ _

/-- A call is counted and reported before its answer is stored. -/
theorem Ready.settle (h : Ready E prepared session correlationId hi s) {delta : UsageStats}
    (hfits : (columns delta).all fitsColumn = true) (hroom : HasRoom (stored s).usage delta)
    {summary : String} {detail : Option String} (kind : ActivityKind)
    (hsummary : (!isBlank summary && decide (summary.utf8ByteSize ≤ 1024)
      && lengthWithin summary 1024) = true)
    (hdetail : (detail.all fun value => decide (value.utf8ByteSize ≤ 4096)) = true)
    {content : String} (hblank : isBlank content = false) (userMessage : ChatMessage)
    (origin : ChatOrigin) (route : ChatRoute) (usage : Option AiUsage)
    (candidateId : Option CacheEntryId) :
    PostBefore hi (do
        Gateway.perform (.addUsage delta)
        activity E session.id correlationId kind summary detail
        let message ← assistantMessage E session.id content origin route
          (usage.map fun usage => (prepared.provider, prepared.model, usage)) candidateId
        finishChat session userMessage message) s fun r s' =>
      (Fits content 65536 → Answered (stored s).chatMessages (plus (stored s).usage delta) session
        userMessage content r s') ∧
      (¬ Fits content 65536 → Lost (stored s).chatMessages (plus (stored s).usage delta) r s') := by
  -- The usage is counted first, which leaves everything else ready.
  have hready : Ready E prepared session correlationId hi (counted delta s) :=
    h.progress ⟨Nat.le_refl _, grown_refl _ _ _ _, grown_refl _ _ _ _, grown_refl _ _ _ _⟩
      rfl rfl rfl
  rw [PostBefore, post_bind, post_perform, Post, perform_addUsage hfits hroom]
  change PostBefore hi _ (counted delta s) _
  -- The activity is recordable, so it is stored and the answer follows.
  refine PostBefore.bind (Q := fun r s₁ => r = .ok () ∧ s₁ = afterActivity (eventOf E session.id
    correlationId kind summary detail s.consulted) (counted delta s)) ?_
    (fun _ => keepsAhead_answer _ _ _ _ _ _) ?_ ?_
  · refine Post.mono (activity_cases session.id correlationId kind summary detail) ?_
    rintro r s₁ ⟨hconsulted, ⟨rfl, -, rfl⟩ | ⟨-, hnot⟩⟩ hlt
    · exact ⟨rfl, rfl⟩
    · rw [hconsulted] at hlt
      exact absurd (hready.recordable (Nat.lt_of_lt_of_le (by simp) hlt) kind hsummary hdetail) hnot
  · rintro u s₁ - ⟨-, rfl⟩
    exact (hready.progress (progress_afterActivity rfl) rfl rfl rfl).answer hblank userMessage
      origin route usage candidateId
  · rintro e s₁ ⟨he, -⟩
    cases he

/-- A number of 32 bits has at most ten digits. -/
theorem utf8ByteSize_toString_le (n : UInt32) : (toString n.toNat).utf8ByteSize ≤ 10 := by
  have hsize := utf8ByteSize_of_all_opaque _ (all_opaque_repr n.toNat)
  rw [String.ofList_toList] at hsize
  change n.toNat.repr.utf8ByteSize ≤ 10
  rw [hsize]
  have hlt := n.toNat_lt
  exact length_toList_repr_le (by decide) (by omega)

/-- The detail of a finished call is short. -/
theorem completionDetail_short (usage : AiUsage) (reusableCandidate : Bool) :
    (some (completionDetail usage reusableCandidate)).all
      (fun value => decide (value.utf8ByteSize ≤ 4096)) = true := by
  have hinput := utf8ByteSize_toString_le usage.inputTokens
  have houtput := utf8ByteSize_toString_le usage.outputTokens
  have hcached := utf8ByteSize_toString_le usage.cachedTokens
  have hflag : (if reusableCandidate then "true" else "false").utf8ByteSize ≤ 5 := by
    cases reusableCandidate <;> decide
  have htexts : "input=".utf8ByteSize + " output=".utf8ByteSize + " cached=".utf8ByteSize
      + " reusable_candidate=".utf8ByteSize ≤ 64 := by decide
  rw [Option.all_some, decide_eq_true_eq, completionDetail]
  simp only [String.utf8ByteSize_append]
  omega

/-- The candidate is kept if it fits its columns, or if the request had a context. -/
theorem Ready.candidate (h : Ready E prepared session correlationId hi s)
    (userMessage : ChatMessage) (response : AiResponse) :
    PostBefore hi (keepCandidate E prepared userMessage response) s fun r s' =>
      (stored s').chatMessages = (stored s).chatMessages ∧ (stored s').usage = (stored s).usage ∧
      (((∃ candidateId, r = .ok candidateId) ∧ Ready E prepared session correlationId hi s' ∧
          (prepared.projection.items = [] → Candidate E userMessage.content response)) ∨
        (r = .error internalError ∧ prepared.projection.items = [] ∧
          ¬ Candidate E userMessage.content response)) := by
  unfold keepCandidate
  rw [PostBefore, post_ite]
  constructor
  · intro hempty
    rw [post_bind, post_now, next_ok, post_bind, post_generate, next_ok, post_bind, post_perform]
    -- The identifier of the candidate is new if it was generated in time.
    by_cases hlt : s.consulted + 1 + 1 ≤ hi
    · refine Post.mono (perform_candidate h.referenced
        (h.fresh.entries (s.consulted + 1) (Nat.le_succ _) hlt)) ?_
      rintro r t (⟨rfl, hcandidate, rows, rfl, hrows⟩ | ⟨⟨e, rfl⟩, hnot, rfl⟩)
      · refine fun _ => ⟨rfl, rfl, .inl ⟨⟨_, rfl⟩, h.progress ?_ rfl rfl rfl, fun _ => hcandidate⟩⟩
        refine ⟨Nat.le_add_right _ 2, grown_refl _ _ _ _, grown_refl _ _ _ _, ?_⟩
        rintro id hid
        obtain ⟨row, hrow, rfl⟩ := List.mem_map.mp hid
        exact (hrows row hrow).imp_right fun hnew =>
          ⟨s.consulted + 1, Nat.le_succ _, Nat.lt_succ_self _, hnew⟩
      · exact fun _ => ⟨rfl, rfl, .inr ⟨rfl, List.isEmpty_iff.mp hempty, hnot⟩⟩
    · refine Post.mono (Q := fun _ _ => True) trivial ?_
      rintro (e | u) t -
      · exact fun hconsulted => absurd hconsulted hlt
      · exact fun hconsulted => absurd hconsulted hlt
  -- With a context in the request no candidate is kept.
  · intro hcontext _
    refine ⟨rfl, rfl, .inl ⟨⟨_, rfl⟩, h, fun hnil => absurd ?_ hcontext⟩⟩
    rw [hnil]
    rfl

/-- The answer after a failure can be stored. -/
theorem errorText_fits (error : AiError) :
    isBlank ("AI is currently unavailable. " ++ sanitizedAiError error) = false ∧
      Fits ("AI is currently unavailable. " ++ sanitizedAiError error) 65536 := by
  rw [fits_iff]
  cases error <;> decide +kernel

theorem sanitizedAiError_short (error : AiError) :
    (some (sanitizedAiError error)).all
    (fun value => decide (value.utf8ByteSize ≤ 4096)) = true := by
  cases error <;> decide +kernel

/-- A failed call is counted and reported, and the user is shown this text. -/
theorem Ready.unavailable (h : Ready E prepared session correlationId hi s)
    {delta : UsageStats} (hcolumns : (columns delta).all fitsColumn = true)
    (hroom : HasRoom (stored s).usage delta) {summary detail text : String}
    (hsummary : (!isBlank summary && decide (summary.utf8ByteSize ≤ 1024)
      && lengthWithin summary 1024) = true)
    (hdetail : (some detail).all (fun value => decide (value.utf8ByteSize ≤ 4096)) = true)
    (hblank : isBlank text = false) (hfits : Fits text 65536) (userMessage : ChatMessage)
    (kind : ActivityKind) :
    PostBefore hi (do
        Gateway.perform (.addUsage delta)
        activity E session.id correlationId kind summary (some detail)
        answerUnavailable E session userMessage text) s fun r s' =>
      Answered (stored s).chatMessages (plus (stored s).usage delta) session userMessage
        text r s' := by
  have hsettled := h.settle hcolumns hroom kind hsummary hdetail hblank userMessage
    .system .unavailable none none
  rw [Option.map_none] at hsettled
  unfold answerUnavailable
  refine hsettled.mono ?_
  rintro r s' ⟨hanswered, -⟩
  exact hanswered hfits

theorem summary_fits : (!isBlank "AI provider request failed"
    && decide ("AI provider request failed".utf8ByteSize ≤ 1024)
    && lengthWithin "AI provider request failed" 1024) = true := by decide

/-- A failed call is counted and answered. -/
theorem Ready.failed (h : Ready E prepared session correlationId hi s) (userMessage : ChatMessage)
    (error : AiError) (hroom : HasRoom (stored s).usage failedUsage) :
    PostBefore hi (answerFailed E session userMessage correlationId error) s fun r s' =>
      Answered (stored s).chatMessages (plus (stored s).usage failedUsage) session
        userMessage ("AI is currently unavailable. " ++ sanitizedAiError error) r s' := by
  obtain ⟨hblank, hfits⟩ := errorText_fits error
  exact h.unavailable columns_failedUsage hroom summary_fits (sanitizedAiError_short error) hblank
    hfits userMessage
    .aiFailed

/-- So is a call that was answered. -/
theorem Ready.completed (h : Ready E prepared session correlationId hi s)
    (userMessage : ChatMessage) (response : AiResponse)
    (hroom : HasRoom (stored s).usage (costOf (.ok response)))
    (hblank : isBlank response.content = false) :
    PostBefore hi (answerCompleted E prepared session userMessage correlationId response) s
      fun r s' =>
      (Fits response.content 65536 ∧
          (prepared.projection.items = [] → Candidate E userMessage.content response) →
        Answered (stored s).chatMessages (plus (stored s).usage (costOf (.ok response))) session
          userMessage response.content r s') ∧
      (¬ (Fits response.content 65536 ∧
          (prepared.projection.items = [] → Candidate E userMessage.content response)) →
        Lost (stored s).chatMessages
          (if prepared.projection.items = [] then (stored s).usage
            else plus (stored s).usage (costOf (.ok response))) r s') := by
  refine PostBefore.bind (h.candidate userMessage response) (fun _ => ?_) ?_ ?_
  · exact (ahead_steps.perform (by simp)).bind fun _ => (ahead_steps.activity _ _ _ _ _).bind
      fun _ => keepsAhead_answer _ _ _ _ _ _
  -- The candidate was kept, or none was due.
  · rintro candidateId s₁ - ⟨hmessages, husage, ⟨-, hready, hcandidate⟩ | ⟨he, -, -⟩⟩
    · have hroom' : HasRoom (stored s₁).usage (costOf (.ok response)) := by
        rw [husage]
        exact hroom
      refine PostBefore.mono (hready.settle (columns_costOf (.ok response)) hroom' .aiCompleted
        (by decide) (completionDetail_short _ _) hblank userMessage .ai .ai (some response.usage)
        candidateId) ?_
      rw [hmessages, husage]
      rintro r s' ⟨hanswered, hlost⟩
      refine ⟨fun hkeep => hanswered hkeep.1, fun hnot => ?_⟩
      -- A candidate that was kept has a response that fits.
      have hlong : ¬ Fits response.content 65536 := fun hfits => hnot ⟨hfits, hcandidate⟩
      rw [if_neg fun hempty => hlong (hcandidate hempty).response]
      exact hlost hlong
    · cases he
  -- The candidate was refused: the request fails before the usage is counted.
  · rintro e s₁ ⟨hmessages, husage, ⟨⟨_, he⟩, -, -⟩ | ⟨he, hempty, hnot⟩⟩
    · cases he
    · cases he
      refine ⟨fun hkeep => absurd (hkeep.2 hempty) hnot, fun _ => ⟨rfl, hmessages, ?_⟩⟩
      rw [if_pos hempty, husage]

/-- The reply is dealt with: it is answered and counted, or lost. -/
theorem Ready.reply (h : Ready E prepared session correlationId hi s) (userMessage : ChatMessage)
    (hcontext : prepared.request.context = prepared.projection.items)
    (reply : Except AiError AiResponse) (hroom : HasRoom (stored s).usage (costOf reply))
    (hcontent : ∀ response, reply = .ok response → isBlank response.content = false) :
    PostBefore hi (answerReply E prepared session userMessage correlationId (some reply)) s
      fun r s' =>
      (Keepable E userMessage.content prepared.request reply →
        Answered (stored s).chatMessages (plus (stored s).usage (costOf reply)) session userMessage
          (answerOf reply) r s') ∧
      (¬ Keepable E userMessage.content prepared.request reply →
        Lost (stored s).chatMessages
          (if prepared.request.context = [] then (stored s).usage
            else plus (stored s).usage (costOf reply)) r s') := by
  cases reply with
  | error error =>
      rw [costOf_error] at hroom
      rw [costOf_error, answerOf_error, answerReply]
      refine (h.failed userMessage error hroom).mono ?_
      exact fun r s' hanswered => ⟨fun _ => hanswered, fun hnot => absurd trivial hnot⟩
  | ok response =>
      rw [answerReply, hcontext]
      refine (h.completed userMessage response hroom (hcontent response rfl)).mono ?_
      unfold Keepable
      rw [hcontext]
      exact fun r s' hsettled => hsettled

end

/-! ## The call -/

section

variable {E : Environment} {s s' : GatewayState} {request : ChatRequest} {correlationId : String}
  {session : ChatSession} {userMessage : ChatMessage} {prepared : Prepared} {hi : Nat}

/-- The provider and the model of a prepared call exist. -/
theorem references_of_prepared {t : Tables} {selection : ModelSelection}
    (h : PreparedFrom t selection session userMessage prepared) :
    references t (some prepared.provider.id) (some prepared.model.id) = true := by
  obtain ⟨providers, hproviders, -, hprovider, -⟩ := h.selected
  obtain ⟨row, hrow, hread⟩ :=
    exists_of_forall₂_right ((mapM_eq_ok_iff _ _ _).mp hproviders) hprovider
  obtain ⟨model, hmodel, hid⟩ := List.mem_map.mp h.model.1
  unfold references
  rw [Option.all_some, Option.all_some, Bool.and_eq_true, List.any_eq_true, List.any_eq_true]
  refine ⟨⟨row, (perm_orderBy _ _).mem_iff.mp hrow, ?_⟩,
    ⟨model, (perm_orderBy _ _).mem_iff.mp hmodel, ?_⟩⟩
  · exact beq_iff_eq.mpr (providerFromRow_spec hread).1.symm
  · rw [← hid]
    exact beq_self_eq_true _

/-- What the steps up to the call leave for the reply. -/
theorem ready_of_called {reply : Option (Except AiError AiResponse)}
    (h : Called E s request correlationId session userMessage prepared reply s')
    (hnew : NewIdentifiers E s hi) (helapsed : ∀ k, fitsColumn (E.elapsedMs k) = true) :
    Ready E prepared session correlationId hi s' ∧
    (stored s').chatMessages = (stored s).chatMessages ++ [userMessage] ∧
    (stored s').usage = (stored s).usage ∧
    userMessage.content = String.ofList (trim request.message.toList) ∧
    prepared.request.context = prepared.projection.items := by
  obtain ⟨s₁, s₂, s₃, s₄, s₅, hreceive, -, hcached, hmiss, hprepare, hselected, -, -, rfl⟩ :=
    h.steps
  -- Each phase before the call keeps count of the identifiers that it uses.
  obtain ⟨hkept₁, hmessages⟩ := (receive_uncounted request correlationId).of_eq hreceive
  have hreceived := (receive_spec E request correlationId s).of_eq hreceive
  obtain rfl := (cachedAnswer_spec E userMessage s₁).of_eq hcached
  obtain ⟨hkept₃, hmessages₃, -, -, -⟩ := (activity_uncounted _ _ _ _ _).of_eq hmiss
  obtain ⟨hkept₄, htables, hprepared⟩ := (prepare_uncounted _ _ _).of_eq hprepare
  obtain ⟨hkept₅, hmessages₅, hsettings, hsessions, hrecordable⟩ :=
    (activity_uncounted _ _ _ _ _).of_eq hselected
  obtain ⟨id, hmessage⟩ := hreceived.message
  have hkept := trans_of (Uncounted E) hkept₁
    (trans_of (Uncounted E) hkept₃ (trans_of (Uncounted E) hkept₄ hkept₅))
  -- The call itself takes two more readings of the clock.
  have hprogress : Progress E s (exchanged prepared reply s₅) := by
    obtain ⟨hle, hmessages, hevents, hentries⟩ :=
      trans_of (Progress E) hkept.progress (progress_consulted E s₅ 2)
    exact ⟨hle, hmessages, hevents, hentries⟩
  have hcorrelation := hrecordable.bounds
  have hcolumns := hrecordable.columns
  simp only [eventOf, Option.all_some, Bool.and_eq_true] at hcorrelation hcolumns
  refine ⟨⟨hnew.progress hprogress, helapsed, ?_, ?_, hcolumns.1.2, ?_⟩, ?_, hkept.usage, ?_, ?_⟩
  · change (stored s₅).chatSessions.any _ = true
    rw [hsessions]
    exact hcolumns.1.1
  · exact (Bool.and_eq_true _ _).mpr hcorrelation.1.1.1
  · have href := references_of_prepared hprepared
    unfold references at href ⊢
    rw [← htables, ← hsettings.providers, ← hsettings.models] at href
    exact href
  · change (stored s₅).chatMessages = _
    rw [hmessages₅, stored, htables, ← stored, hmessages₃, hmessages]
  · exact congrArg ChatMessage.content hmessage
  · rw [hprepared.request]
    rfl

end

/-- A call that the provider has replied to, whatever else the tables hold. Its answer is stored and
it is counted, both at once, if and only if the reply can be kept. Otherwise the request fails after
the call, and the call is not even counted where the request had no context. -/
theorem paid_call_accounted {E : Environment} {s : GatewayState} {request : ChatRequest}
    {correlationId : String} {provider : Domain.Gateway.Provider} {model : AiModel}
    {aiRequest : AiRequest} {reply : Except AiError AiResponse}
    (hexchange : (chat E request correlationId s).2.exchanges =
      s.exchanges ++ [⟨provider, model, aiRequest, some reply⟩])
    (hnew : NewIdentifiers E s (chat E request correlationId s).2.consulted)
    (helapsed : ∀ k, fitsColumn (E.elapsedMs k) = true)
    (hcontent : ∀ response, reply = .ok response → isBlank response.content = false)
    (hroom : HasRoom (stored s).usage (costOf reply)) :
    let message := String.ofList (trim request.message.toList)
    let outcome := chat E request correlationId s
    (Keepable E message aiRequest reply →
      ∃ result, outcome.1 = .ok (.answered result) ∧ result.userMessage.content = message ∧
        result.assistantMessage.role = .assistant ∧
        result.assistantMessage.content = answerOf reply ∧
        (stored outcome.2).chatMessages =
          (stored s).chatMessages ++ [result.userMessage, result.assistantMessage] ∧
        (stored outcome.2).usage = plus (stored s).usage (costOf reply)) ∧
    (¬ Keepable E message aiRequest reply →
      outcome.1 = .error internalError ∧
        (∃ userMessage, userMessage.content = message ∧
          (stored outcome.2).chatMessages = (stored s).chatMessages ++ [userMessage]) ∧
        (stored outcome.2).usage =
          if aiRequest.context = [] then (stored s).usage
          else plus (stored s).usage (costOf reply)) := by
  intro message outcome
  -- A call was made, so the chat is the phases before it, the call and the handling of the reply.
  rcases chat_cases E request correlationId s with
    hnone | ⟨session, userMessage, prepared, reply', s', hcalled, hchat⟩
  · rw [hnone] at hexchange
    have hlength := congrArg List.length hexchange
    simp at hlength
  · have hstate : outcome.2 =
        (answerReply E prepared session userMessage correlationId reply' s').2 := by
      simp only [outcome, hchat, state_map]
    have hresult : outcome.1 =
        (answerReply E prepared session userMessage correlationId reply' s').1.map .answered := by
      simp only [outcome, hchat, outcome_map]
    have hcalls : outcome.2.exchanges = s'.exchanges := by
      rw [hstate]
      exact keepsCalls_answerReply prepared session userMessage correlationId reply' s'
    -- It is the call that the hypothesis is about.
    have hsame := List.append_cancel_left (hexchange.symm.trans (hcalls.trans hcalled.exchanges))
    simp only [List.cons.injEq, Exchange.mk.injEq, and_true] at hsame
    obtain ⟨-, -, hrequest, rfl⟩ := hsame
    obtain ⟨hready, hmessages, husage, hmessage, hcontext⟩ :=
      ready_of_called hcalled hnew helapsed
    rw [← husage] at hroom
    obtain ⟨hkept, hlost⟩ := hready.reply userMessage hcontext reply hroom hcontent
      (Nat.le_of_eq (congrArg GatewayState.consulted hstate.symm))
    rw [hmessage] at hkept hlost
    rw [hresult, hstate, hrequest, ← husage]
    constructor
    · intro hkeepable
      obtain ⟨assistant, hanswer, hrole, htext, hstored, hcounted⟩ := hkept hkeepable
      refine ⟨⟨session, userMessage, assistant, none⟩, ?_, hmessage, hrole, htext, ?_, hcounted⟩
      · rw [hanswer]
        rfl
      · rw [hstored, hmessages, List.append_assoc]
        rfl
    · intro hnot
      obtain ⟨herror, hstored, hcounted⟩ := hlost hnot
      refine ⟨?_, ⟨userMessage, hmessage, hstored.trans hmessages⟩, hcounted⟩
      rw [herror]
      rfl

theorem generate_injective (kind : GeneratedKind) :
    Function.Injective (TypedId.generate kind) := by
  intro stamp stamp' h
  have hvalue := congrArg TypedId.asStr h
  rw [TypedId.asStr_generate, TypedId.asStr_generate] at hvalue
  exact (Domain.GeneratedIds.generatedValue_inj
    kind.colon_notMem_tag kind.colon_notMem_tag hvalue).2

/-- An answer of a provider. -/
def fine : AiResponse := ⟨"Fine.", "talker", ⟨10, 5, 0, 0⟩⟩

/-- A world in which the provider gives it. -/
def replying : Environment :=
  { RequestPreview.isolated with complete := fun _ _ _ _ _ => some (.ok fine) }

/-- A service with one provider that has not been asked anything. -/
def unasked : GatewayState := RequestIsolation.after RequestIsolation.setUp

/-- A call that is answered. -/
theorem paid_call_accounted_fine :
    ∃ result, (chat replying RequestIsolation.smallTalk "request:1" unasked).1 =
        .ok (.answered result) ∧
      result.userMessage.content = "How are you?" ∧
      result.assistantMessage.role = .assistant ∧ result.assistantMessage.content = "Fine." ∧
      (stored (chat replying RequestIsolation.smallTalk "request:1" unasked).2).chatMessages =
        (stored unasked).chatMessages ++ [result.userMessage, result.assistantMessage] ∧
      (stored (chat replying RequestIsolation.smallTalk "request:1" unasked).2).usage =
        plus (stored unasked).usage (usageOf fine.usage) := by
  have hexchange : (chat replying RequestIsolation.smallTalk "request:1" unasked).2.exchanges =
      unasked.exchanges ++ [⟨RequestPreview.hosted, RequestPreview.talker,
        requestWith RequestIsolation.impersonal "How are you?" [], some (.ok fine)⟩] := by
    rfl
  have hconsulted : (chat replying RequestIsolation.smallTalk "request:1" unasked).2.consulted ≤
      64 := by decide +kernel
  have hnew : NewIdentifiers replying unasked
      (chat replying RequestIsolation.smallTalk "request:1" unasked).2.consulted := by
    have hempty : (stored unasked).chatMessages = [] ∧ (stored unasked).activityEvents = [] ∧
        unasked.tables.responseCache = [] := by decide +kernel
    refine ⟨?_, ?_, ?_, ?_⟩
    · simp [hempty]
    · simp [hempty]
    · simp [hempty]
    -- Fewer identifiers are generated than there are sequence numbers.
    · intro kind j k _ hjk hk h
      have hsequence := congrArg (fun stamp => stamp.sequence.val) (generate_injective kind h)
      change j % 2 ^ 64 = k % 2 ^ 64 at hsequence
      omega
  have hkeepable : Keepable replying
      (String.ofList (trim RequestIsolation.smallTalk.message.toList))
      (requestWith RequestIsolation.impersonal "How are you?" []) (.ok fine) := by
    have hfine : Fits "Fine." 65536 := fits_iff.mpr (by decide)
    have hrequest : Fits (String.ofList (normalizeRequest replying.texts (String.ofList
        (trim RequestIsolation.smallTalk.message.toList)).toList)) 4096 :=
      fits_iff.mpr (by decide +kernel)
    exact ⟨hfine, fun _ => ⟨hrequest, hfine⟩⟩
  have htrim : String.ofList (trim RequestIsolation.smallTalk.message.toList) = "How are you?" := by
    decide +kernel
  have helapsed : ∀ k, fitsColumn (replying.elapsedMs k) = true := by
    intro k
    change fitsColumn 0 = true
    decide
  have hroom : HasRoom (stored unasked).usage (costOf (.ok fine)) := by
    rw [show (stored unasked).usage = .zero by decide +kernel]
    exact hasRoom_zero (columns_costOf _)
  obtain ⟨result, hresult, hmessage, hrole, hcontent, hmessages, husage⟩ :=
    (paid_call_accounted hexchange hnew helapsed
      (by rintro response ⟨⟩; decide) hroom).1 hkeepable
  exact ⟨result, hresult, hmessage.trans htrim, hrole, hcontent, hmessages, husage⟩

end Halquen.Service.CallAccounting
