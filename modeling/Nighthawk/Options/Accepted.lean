import Nighthawk.Lib.Fallible
import Nighthawk.Options.Code

/-!
# What an accepted value has passed

Both constructors end with the validation, so each check can be read back from the value alone.
-/

namespace Nighthawk.Options

theorem reject_eq_ok {condition : Prop} [Decidable condition] {what : String} :
    reject condition what = .ok () ↔ ¬condition := by
  unfold reject
  split <;> simp [*]

theorem emitHeader_eq_ok {header : Str} {h : HeaderValueOption} :
    emitHeader header = .ok h ↔ splitHeader header = some (h.key, h.value) ∧ h.append = some false := by
  obtain ⟨key, value, append⟩ := h
  unfold emitHeader
  cases splitHeader header with
  | none => simp
  | some split => simp [Prod.ext_iff, eq_comm, and_assoc]

theorem emitRequest_eq_ok {o : OptionsImpl} {r : OneofRequestOptions} (h : emitRequest o = .ok r) :
    (o.requestSource ≠ [] ∧ r = .requestSource o.requestSource) ∨
      (o.requestSource = [] ∧ ∃ c, o.requestSourcePluginConfig = some c ∧ r = .requestSourcePluginConfig c) ∨
      (o.requestSource = [] ∧ o.requestSourcePluginConfig = none ∧ ∃ headers,
        List.Forall₂ (fun header v => emitHeader header = .ok v) o.requestHeaders headers ∧
        r = .requestOptions
          { requestMethod := o.requestMethod, requestHeaders := headers
            requestBodySize := if o.requestHeaders = [] then none else some o.requestBodySize }) := by
  unfold emitRequest at h
  by_cases hsource : o.requestSource ≠ []
  · rw [if_pos hsource] at h
    exact Or.inl ⟨hsource, (Except.ok.inj h).symm⟩
  · rw [if_neg hsource] at h
    have hsource := not_not.mp hsource
    split at h
    · rename_i c hc
      exact Or.inr (Or.inl ⟨hsource, c, hc, (Except.ok.inj h).symm⟩)
    · rename_i hnone
      obtain ⟨headers, hheaders, h⟩ := Fallible.bind_eq_ok.mp h
      exact Or.inr (Or.inr ⟨hsource, hnone, headers, Fallible.mapM_eq_ok.mp hheaders, (Except.ok.inj h).symm⟩)

theorem toCommandLineOptions_eq_ok {o : OptionsImpl} {q : CommandLineOptions} :
    toCommandLineOptions o = .ok q ↔ ∃ r, emitRequest o = .ok r ∧ emit o r = q := Fallible.map_eq_ok

theorem validate_eq_ok {env : Env} {o : OptionsImpl} :
    validate env o = .ok () ↔
      o.h2UseMultipleConnections = false ∧ validateConcurrency o.concurrency = .ok () ∧
      validateRequestSource o.requestSource = .ok () ∧ validateTargets o = .ok () ∧
      ∃ r, emitRequest o = .ok r ∧ (emit o r).valid = true ∧ env.importedRules (emit o r) = true := by
  have hmessage : ∀ q, validateMessage env q = .ok () ↔ q.valid = true ∧ env.importedRules q = true := by
    intro q
    unfold validateMessage
    split <;> simp_all
  unfold validate
  simp only [Fallible.check_bind_eq_ok, reject_eq_ok, Bool.not_eq_true]
  rw [Fallible.bind_eq_ok]
  simp only [toCommandLineOptions_eq_ok, hmessage]
  constructor
  · rintro ⟨h1, h2, h3, h4, _, ⟨r, hr, rfl⟩, h5⟩
    exact ⟨h1, h2, h3, h4, r, hr, h5⟩
  · rintro ⟨h1, h2, h3, h4, r, hr, h5⟩
    exact ⟨h1, h2, h3, h4, _, ⟨r, hr, rfl⟩, h5⟩

theorem checked_eq_ok {env : Env} {o o' : OptionsImpl} :
    checked env o = .ok o' ↔ validate env o = .ok () ∧ o = o' := by
  rw [checked, Fallible.map_eq_ok]
  exact ⟨fun ⟨_, h, heq⟩ => ⟨h, heq⟩, fun ⟨h, heq⟩ => ⟨(), h, heq⟩⟩

theorem fromProto_eq_ok {env : Env} {p : CommandLineOptions} {o : OptionsImpl} :
    fromProto env p = .ok o ↔
      readTunnel env p (configure p) = .ok o ∧ checkRateLimiterPlugin p = .ok () ∧
        validate env o = .ok () := by
  rw [fromProto, Fallible.bind_eq_ok]
  simp only [Fallible.check_bind_eq_ok, checked_eq_ok]
  constructor
  · rintro ⟨o', hread, hcheck, hvalid, rfl⟩
    exact ⟨hread, hcheck, hvalid⟩
  · rintro ⟨hread, hcheck, hvalid⟩
    exact ⟨o, hread, hcheck, hvalid, rfl⟩

theorem fromArgs_eq_ok {env : Env} {a : Args} {o : OptionsImpl} (h : fromArgs env a = .ok o) :
    ∃ parsed loaded opened, parseFlags env a = .ok parsed ∧ loadMessages env a parsed = .ok loaded ∧
      openTunnel env a loaded = .ok opened ∧ loadTunnelTlsContext env a opened = .ok o ∧
        validate env o = .ok () := by
  unfold fromArgs at h
  simp only [Fallible.check_bind_eq_ok] at h
  obtain ⟨-, h⟩ := h
  obtain ⟨parsed, hparsed, h⟩ := Fallible.bind_eq_ok.mp h
  obtain ⟨-, h⟩ := Fallible.check_bind_eq_ok.mp h
  obtain ⟨loaded, hloaded, h⟩ := Fallible.bind_eq_ok.mp h
  obtain ⟨opened, hopened, h⟩ := Fallible.bind_eq_ok.mp h
  obtain ⟨_, hlast, h⟩ := Fallible.bind_eq_ok.mp h
  obtain ⟨hvalid, rfl⟩ := checked_eq_ok.mp h
  exact ⟨parsed, loaded, opened, hparsed, hloaded, hopened, hlast, hvalid⟩

/-! ## The request flags -/

theorem parseFlags_request {env : Env} {a : Args} {o : OptionsImpl} (h : parseFlags env a = .ok o) :
    o.requestHeaders = a.requestHeaders ∧ o.requestSource = a.requestSource.getD [] := by
  unfold parseFlags at h
  obtain ⟨_, -, h⟩ := Fallible.bind_eq_ok.mp h
  obtain ⟨_, -, h⟩ := Fallible.bind_eq_ok.mp h
  obtain ⟨_, -, h⟩ := Fallible.bind_eq_ok.mp h
  obtain ⟨_, -, h⟩ := Fallible.bind_eq_ok.mp h
  obtain ⟨_, -, h⟩ := Fallible.bind_eq_ok.mp h
  obtain ⟨_, -, h⟩ := Fallible.bind_eq_ok.mp h
  obtain ⟨_, -, h⟩ := Fallible.bind_eq_ok.mp h
  cases h
  exact ⟨rfl, rfl⟩

theorem loadIfSet_eq_none {α : Type} {load : Str → Option α} {json : Str} {v : Option α}
    (h : loadIfSet load json = .ok v) : v = none ↔ json = [] := by
  unfold loadIfSet at h
  split_ifs at h with hnil
  · cases h
    exact iff_of_true rfl hnil
  · obtain ⟨m, -, rfl⟩ := Fallible.map_eq_ok.mp h
    exact iff_of_false (by simp) hnil

theorem loadMessages_request {env : Env} {a : Args} {o o' : OptionsImpl} (h : loadMessages env a o = .ok o') :
    o'.requestHeaders = o.requestHeaders ∧ o'.requestSource = o.requestSource ∧
      (o'.requestSourcePluginConfig = none ↔ a.requestSourcePluginConfig = []) := by
  unfold loadMessages at h
  obtain ⟨-, h⟩ := Fallible.check_bind_eq_ok.mp h
  obtain ⟨_, -, h⟩ := Fallible.bind_eq_ok.mp h
  obtain ⟨_, -, h⟩ := Fallible.bind_eq_ok.mp h
  obtain ⟨_, -, h⟩ := Fallible.bind_eq_ok.mp h
  obtain ⟨-, h⟩ := Fallible.check_bind_eq_ok.mp h
  obtain ⟨config, hconfig, h⟩ := Fallible.bind_eq_ok.mp h
  have h := Fallible.of_ite_checks h
  obtain ⟨_, -, h⟩ := Fallible.bind_eq_ok.mp h
  obtain ⟨_, -, h⟩ := Fallible.bind_eq_ok.mp h
  cases h
  exact ⟨rfl, rfl, loadIfSet_eq_none hconfig⟩

theorem openTunnel_request {env : Env} {a : Args} {o o' : OptionsImpl} (h : openTunnel env a o = .ok o') :
    ∃ protocol uri port, o' =
      { o with tunnelProtocolOption := protocol, tunnelUri := uri, encapPort := port } := by
  unfold openTunnel at h
  split at h
  · split at h
    · cases h
    · split at h <;> cases h
      exact ⟨_, _, _, rfl⟩
  · obtain ⟨-, h⟩ := Fallible.check_bind_eq_ok.mp h
    cases h
    exact ⟨_, _, _, rfl⟩

theorem loadTunnelTlsContext_request {env : Env} {a : Args} {o o' : OptionsImpl}
    (h : loadTunnelTlsContext env a o = .ok o') : ∃ context, o' = { o with tunnelTlsContext := context } := by
  unfold loadTunnelTlsContext at h
  obtain ⟨context, -, h⟩ := Fallible.bind_eq_ok.mp h
  obtain ⟨-, h⟩ := Fallible.check_bind_eq_ok.mp h
  have h := Fallible.of_ite_checks h
  cases h
  exact ⟨context, rfl⟩

theorem fromArgs_request {env : Env} {a : Args} {o : OptionsImpl} (h : fromArgs env a = .ok o) :
    o.requestHeaders = a.requestHeaders ∧ o.requestSource = a.requestSource.getD [] ∧
      (o.requestSourcePluginConfig = none ↔ a.requestSourcePluginConfig = []) := by
  obtain ⟨parsed, loaded, opened, hparsed, hloaded, hopened, hlast, -⟩ := fromArgs_eq_ok h
  obtain ⟨hheaders, hsource⟩ := parseFlags_request hparsed
  obtain ⟨hheaders', hsource', hplugin⟩ := loadMessages_request hloaded
  obtain ⟨_, _, _, rfl⟩ := openTunnel_request hopened
  obtain ⟨_, rfl⟩ := loadTunnelTlsContext_request hlast
  exact ⟨hheaders'.trans hheaders, hsource'.trans hsource, hplugin⟩

theorem Accepted.validate {env : Env} {o : OptionsImpl} (h : Accepted env o) : validate env o = .ok () := by
  obtain ⟨p, hp⟩ | ⟨a, ha⟩ := h
  · exact (fromProto_eq_ok.mp hp).2.2
  · obtain ⟨_, _, _, -, -, -, -, hvalid⟩ := fromArgs_eq_ok ha
    exact hvalid

end Nighthawk.Options
