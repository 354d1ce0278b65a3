import Mathlib.Data.Set.Insert
import Nighthawk.Lib.Fallible
import Nighthawk.Lib.Runs
import Nighthawk.Server.Code

/-!
# Replies and framing

The same request can come as headers alone, with data, or with trailers. The reply is decided in
three callbacks.
-/

namespace Nighthawk.Server

variable (E : Envoy)

/-- The well-formed ways to send what follows the request headers. -/
inductive Framing where
  | headersOnly
  | withData (init : List Str) (last : Str)
  | withTrailers (data : List Str) (trailers : HeaderMap)
  deriving DecidableEq, Repr

namespace Framing

def calls (headers : HeaderMap) : Framing → List Call
  | headersOnly => [.decodeHeaders headers true]
  | withData init last =>
      .decodeHeaders headers false :: init.map (.decodeData · false) ++ [.decodeData last true]
  | withTrailers data trailers =>
    .decodeHeaders headers false :: data.map (.decodeData · false) ++ [.decodeTrailers trailers]

def HasTrailers : Framing → Prop
  | withTrailers _ _ => True
  | _ => False

end Framing

/-- The replies to a request, unless an assertion fails. -/
def replies (startup : ResponseOptions) (headers : HeaderMap) (framing : Framing) :
    Option (List LocalReply) :=
  (Runs.exec (step E) { config := startup } (framing.calls headers)).map (·.replies)

/-! ## What is asked for -/

/-- The startup configuration or the configuration header asks for an echo, and the header is
understood. -/
def EchoAsked (startup : ResponseOptions) (headers : HeaderMap) : Prop :=
  match headers.get testServerConfig with
  | [] => startup.echoRequestHeaders = true
  | [json] => ∃ options, E.loadFromJson json = .ok options ∧ E.validate (startup.mergeFrom options) = .ok () ∧
      (startup.echoRequestHeaders = true ∨ options.echoRequestHeaders = true)
  | _ :: _ :: _ => False

/-- No configuration with both lists of headers comes out of merging. -/
def OneHeaderList (startup : ResponseOptions) (headers : HeaderMap) : Prop :=
  ∀ options, computeEffectiveConfiguration E startup headers = .ok options → options.Valid

theorem mergeJsonConfig_eq_ok {json : Str} {config merged : ResponseOptions} :
    mergeJsonConfig E json config = .ok merged ↔ ∃ options, E.loadFromJson json = .ok options ∧
      E.validate (config.mergeFrom options) = .ok () ∧ config.mergeFrom options = merged := by
  unfold mergeJsonConfig
  simp only [Fallible.mapError_eq_ok, Fallible.bind_eq_ok]
  constructor
  · rintro ⟨options, hload, ⟨⟩, hvalid, hmerged⟩
    exact ⟨options, hload, hvalid, Except.ok.inj hmerged⟩
  · rintro ⟨options, hload, hvalid, hmerged⟩
    exact ⟨options, hload, (), hvalid, congrArg Except.ok hmerged⟩

theorem mergeFrom_echo (config options : ResponseOptions) :
    (config.mergeFrom options).echoRequestHeaders = true ↔
      config.echoRequestHeaders = true ∨ options.echoRequestHeaders = true := by
  unfold ResponseOptions.mergeFrom mergeScalar
  cases options.echoRequestHeaders <;> simp

theorem echoAsked_iff (startup : ResponseOptions) (headers : HeaderMap) :
    EchoAsked E startup headers ↔
      ∃ options, computeEffectiveConfiguration E startup headers = .ok options ∧
        options.echoRequestHeaders = true := by
  unfold EchoAsked computeEffectiveConfiguration
  rcases headers.get testServerConfig with _ | ⟨json, _ | ⟨second, rest⟩⟩
  · simp
  · simp only [Fallible.mapError_eq_ok, mergeJsonConfig_eq_ok]
    constructor
    · rintro ⟨options, hload, hvalid, hecho⟩
      exact ⟨_, ⟨options, hload, hvalid, rfl⟩, (mergeFrom_echo startup options).mpr hecho⟩
    · rintro ⟨_, ⟨options, hload, hvalid, rfl⟩, hecho⟩
      exact ⟨options, hload, hvalid, (mergeFrom_echo startup options).mp hecho⟩
  · simp

/-! ## The reply -/

/-- The reply to a request, with the given text after the body that was asked for. -/
def answer (startup : ResponseOptions) (headers : HeaderMap) (dump : Str) : Option LocalReply :=
  match computeEffectiveConfiguration E startup headers with
  | .error status =>
    let body := HttpTestServerDecoderFilter.filterName ++
      " didn't understand the request: ".toList ++ status.message
    some ⟨500, body, E.localReplyHeaders 500 body⟩
  | .ok options =>
    let body := List.replicate options.responseBodySize.toNat 'a' ++ dump
    (applyConfigToResponseHeaders (E.localReplyHeaders 200 body) options).map (⟨200, body, ·⟩)

theorem answer_isSome {startup : ResponseOptions} {headers : HeaderMap} (h : OneHeaderList E startup headers)
    (dump : Str) : ∃ reply, answer E startup headers dump = some reply := by
  unfold answer
  split
  · exact ⟨_, rfl⟩
  · rename_i options heq
    have hvalid := h options heq
    simp only [applyConfigToResponseHeaders, if_pos hvalid]
    exact ⟨_, rfl⟩

def echoed (startup : ResponseOptions) (headers : HeaderMap) : Str :=
  match computeEffectiveConfiguration E startup headers with
  | .ok options => if options.echoRequestHeaders then
      HttpTestServerDecoderFilter.headersDump E headers else []
  | .error _ => []

theorem headersDump_ne_nil (headers : HeaderMap) : HttpTestServerDecoderFilter.headersDump E headers ≠ [] :=
  List.append_ne_nil_of_left_ne_nil (by decide) _

theorem echoed_eq_nil_iff (startup : ResponseOptions) (headers : HeaderMap) :
    echoed E startup headers = [] ↔ ¬ EchoAsked E startup headers := by
  rw [echoAsked_iff]
  unfold echoed
  cases computeEffectiveConfiguration E startup headers with
  | error status => simp
  | ok options => cases hecho : options.echoRequestHeaders <;> simp [hecho, headersDump_ne_nil E headers]

theorem answer_injective {startup : ResponseOptions} {headers : HeaderMap}
    (hecho : EchoAsked E startup headers)
    {dump dump' : Str} {reply : LocalReply} (h : answer E startup headers dump = some reply)
    (h' : answer E startup headers dump' = some reply) : dump = dump' := by
  obtain ⟨options, heq, -⟩ := (echoAsked_iff E startup headers).mp hecho
  simp only [answer, heq] at h h'
  obtain ⟨_, -, rfl⟩ := Option.map_eq_some_iff.mp h
  obtain ⟨_, -, hreply⟩ := Option.map_eq_some_iff.mp h'
  exact (List.append_cancel_left (congrArg LocalReply.body hreply)).symm

/-- The filter after the headers of a request that goes on. -/
def started (startup : ResponseOptions) (headers : HeaderMap) : HttpTestServerDecoderFilter :=
  { config := startup, effectiveConfig := computeEffectiveConfiguration E startup headers }

theorem exec_data (f : HttpTestServerDecoderFilter) (data : List Str) :
    Runs.exec (step E) f (data.map (.decodeData · false)) = some f := by
  induction data with
  | nil => rfl
  | cons d data ih => exact ih

theorem exec_started (startup : ResponseOptions) (headers : HeaderMap) (data : List Str) (last : Call) :
    Runs.exec (step E) { config := startup }
      (.decodeHeaders headers false :: data.map (.decodeData · false) ++ [last]) =
      Runs.exec (step E) (started E startup headers) [last] := by
  rw [List.cons_append]
  show Runs.exec (step E) (started E startup headers) _ = _
  rw [Runs.exec_append, exec_data, Option.bind_some]

theorem snd_of_map {α β : Type} (a : α) (x : Option β) : (x.map (Prod.mk a)).map Prod.snd = x := by
  cases x <;> rfl

theorem validateOrSendError_replies {startup : ResponseOptions} {headers : HeaderMap} {dump : Str}
    (answering : ResponseOptions → HttpTestServerDecoderFilter)
    (h : ∀ options, computeEffectiveConfiguration E startup headers = .ok options →
      (answering options).replies = [] ∧ (answering options).requestHeadersDump.getD [] = dump) :
    ((started E startup headers).validateOrSendError E fun options =>
      (answering options).sendReply E options).map
        (·.replies) = (answer E startup headers dump).map ([·]) := by
  unfold HttpTestServerDecoderFilter.validateOrSendError answer
  simp only [started]
  cases heq : computeEffectiveConfiguration E startup headers with
  | error status => rfl
  | ok options =>
    obtain ⟨hreplies, hdump⟩ := h options heq
    simp only [HttpTestServerDecoderFilter.sendReply, HttpTestServerDecoderFilter.sendLocalReply, hreplies,
      hdump, Option.map_map]
    rfl

theorem replies_headersOnly (startup : ResponseOptions) (headers : HeaderMap) :
    replies E startup headers .headersOnly =
      (answer E startup headers (echoed E startup headers)).map ([·]) := by
  let echoing : ResponseOptions → HttpTestServerDecoderFilter := fun options =>
    if options.echoRequestHeaders then
      { started E startup headers with requestHeadersDump := some (HttpTestServerDecoderFilter.headersDump E headers) }
    else started E startup headers
  have hstep : step E { config := startup } (.decodeHeaders headers true) =
      (started E startup headers).validateOrSendError E fun options =>
        (echoing options).sendReply E options :=
    snd_of_map _ _
  rw [replies, Framing.calls, Runs.exec_singleton, hstep, validateOrSendError_replies]
  intro options heq
  simp only [echoed, heq, echoing]
  cases options.echoRequestHeaders <;> exact ⟨rfl, rfl⟩

theorem replies_withData (startup : ResponseOptions) (headers : HeaderMap) (init : List Str) (last : Str) :
    replies E startup headers (.withData init last) = (answer E startup headers []).map ([·]) := by
  have hstep : step E (started E startup headers) (.decodeData last true) =
      (started E startup headers).validateOrSendError E fun options =>
        (started E startup headers).sendReply E options :=
    snd_of_map _ _
  rw [replies, Framing.calls, exec_started, Runs.exec_singleton, hstep,
    validateOrSendError_replies E (fun _ => started E startup headers) fun _ _ => ⟨rfl, rfl⟩]
  rfl

theorem replies_withTrailers (startup : ResponseOptions) (headers : HeaderMap) (data : List Str)
    (trailers : HeaderMap) : replies E startup headers (.withTrailers data trailers) = some [] := by
  rw [replies, Framing.calls, exec_started]
  rfl

/-! ## Independence of the framing -/

/-- All these framings get the same single reply. -/
def AnsweredAlike (startup : ResponseOptions) (headers : HeaderMap) (framings : Set Framing) : Prop :=
  ∃ reply, ∀ framing ∈ framings, replies E startup headers framing = some [reply]

/-- What the reply echoes, by framing. -/
def Framing.echoed (startup : ResponseOptions) (headers : HeaderMap) : Framing → Str
  | headersOnly => Server.echoed E startup headers
  | _ => []

theorem replies_eq {startup : ResponseOptions} {headers : HeaderMap} {framing : Framing}
    (h : ¬ framing.HasTrailers) :
    replies E startup headers framing =
      (answer E startup headers (framing.echoed E startup headers)).map ([·]) := by
  cases framing with
  | headersOnly => exact replies_headersOnly E startup headers
  | withData init last => exact replies_withData E startup headers init last
  | withTrailers data trailers => exact absurd trivial h

theorem replies_eq_singleton {startup : ResponseOptions} {headers : HeaderMap} {framing : Framing}
    {reply : LocalReply} :
    replies E startup headers framing = some [reply] ↔
      ¬ framing.HasTrailers ∧ answer E startup headers (framing.echoed E startup headers) = some reply := by
  constructor
  · intro hreply
    have hnot : ¬ framing.HasTrailers := by
      intro htrailers
      cases framing with
      | headersOnly => exact htrailers
      | withData init last => exact htrailers
      | withTrailers data trailers =>
        rw [replies_withTrailers] at hreply
        cases hreply
    rw [replies_eq E hnot] at hreply
    obtain ⟨reply', hanswer, heq⟩ := Option.map_eq_some_iff.mp hreply
    exact ⟨hnot, (List.singleton_inj.mp heq) ▸ hanswer⟩
  · rintro ⟨hnot, hanswer⟩
    rw [replies_eq E hnot, hanswer]
    rfl

theorem answeredAlike_of_echoed {startup : ResponseOptions} {headers : HeaderMap}
    {framings : Set Framing} (dump : Str)
    (h : OneHeaderList E startup headers) (htrailers : ∀ framing ∈ framings, ¬ framing.HasTrailers)
    (hdump : ∀ framing ∈ framings, framing.echoed E startup headers = dump) :
    AnsweredAlike E startup headers framings := by
  obtain ⟨reply, hreply⟩ := answer_isSome E h dump
  refine ⟨reply, fun framing hmem => (replies_eq_singleton E).mpr ⟨htrailers framing hmem, ?_⟩⟩
  rw [hdump framing hmem, hreply]

/-- A set of framings gets the same single reply exactly when none of them has trailers and, where
an echo is asked for, headers alone are not among other framings. -/
theorem answeredAlike_iff (startup : ResponseOptions) (headers : HeaderMap) (framings : Set Framing)
    (h : OneHeaderList E startup headers) :
    AnsweredAlike E startup headers framings ↔
      (∀ framing ∈ framings, ¬ framing.HasTrailers) ∧
      (EchoAsked E startup headers →
        (∀ framing ∈ framings, framing = .headersOnly) ∨ ∀ framing ∈ framings, framing ≠ .headersOnly) := by
  have hother {framing : Framing} (hne : framing ≠ .headersOnly) : framing.echoed E startup headers = [] := by
    cases framing with
    | headersOnly => exact absurd rfl hne
    | withData init last => rfl
    | withTrailers data trailers => rfl
  constructor
  · rintro ⟨reply, halike⟩
    refine ⟨fun framing hmem => ((replies_eq_singleton E).mp (halike framing hmem)).1, fun hecho => ?_⟩
    by_contra hmixed
    rw [not_or] at hmixed
    push Not at hmixed
    obtain ⟨⟨framing, hmem, hne⟩, only, honly, rfl⟩ := hmixed
    have hshort := ((replies_eq_singleton E).mp (halike framing hmem)).2
    have hlong := ((replies_eq_singleton E).mp (halike _ honly)).2
    rw [hother hne] at hshort
    exact (echoed_eq_nil_iff E startup headers).mp (answer_injective E hecho hlong hshort) hecho
  · rintro ⟨htrailers, hsame⟩
    by_cases hecho : EchoAsked E startup headers
    · rcases hsame hecho with honly | hnone
      · refine answeredAlike_of_echoed E (echoed E startup headers) h htrailers fun framing hmem => ?_
        rw [honly framing hmem]
        rfl
      · exact answeredAlike_of_echoed E [] h htrailers fun framing hmem => hother (hnone framing hmem)
    · refine answeredAlike_of_echoed E [] h htrailers fun framing hmem => ?_
      by_cases honly : framing = .headersOnly
      · rw [honly]
        exact (echoed_eq_nil_iff E startup headers).mpr hecho
      · exact hother honly

/-- An Envoy that understands no configuration header. -/
def plainEnvoy : Envoy where
  loadFromJson _ := .error "Unable to parse JSON".toList
  validate _ := .ok ()
  dump headers := headers.flatMap fun header => header.1 ++ ": ".toList ++ header.2 ++ "\n".toList
  localReplyHeaders code _ := [(":status".toList, Text.decimal code)]

def threeBytes : ResponseOptions :=
  { responseBodySize := 3, v3ResponseHeaders := [{ header := some ⟨"X-Supplied".toList, "yes".toList⟩ }] }

theorem answeredAlike_three_bytes :
    AnsweredAlike plainEnvoy threeBytes [(":path".toList, "/".toList)]
      {.headersOnly, .withData [[]] ['x']} := by
  refine (answeredAlike_iff plainEnvoy threeBytes _ _ ?_).mpr ⟨?_, ?_⟩
  · rintro options ⟨⟩
    decide
  · rintro framing (rfl | rfl) <;> exact id
  · intro hecho
    cases hecho

/-- A request with trailers gets no reply, and headers are echoed only to a request without data. -/
theorem framing_changes_reply :
    replies plainEnvoy threeBytes [(":path".toList, "/".toList)] (.withTrailers [] []) = some [] ∧
    (replies plainEnvoy { echoRequestHeaders := true } [(":path".toList, "/".toList)] .headersOnly).map
      (·.map LocalReply.body) = some ["\nRequest Headers:\n:path: /\n".toList] ∧
    (replies plainEnvoy { echoRequestHeaders := true } [(":path".toList, "/".toList)] (.withData [] [])).map
      (·.map LocalReply.body) = some [[]] ∧
    ¬ AnsweredAlike plainEnvoy { echoRequestHeaders := true } [(":path".toList, "/".toList)] Set.univ := by
  refine ⟨rfl, by decide, by decide, ?_⟩
  rintro ⟨reply, halike⟩
  cases halike (.withTrailers [] []) trivial

end Nighthawk.Server
