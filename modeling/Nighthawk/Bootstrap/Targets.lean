import Nighthawk.Bootstrap.Code
import Nighthawk.Options.Accepted
import Nighthawk.Uri.Reformat

/-!
# Where the client connects

The URI of a multi-target endpoint against the endpoint, and the URI of the request source against
the one that was validated.
-/

namespace Nighthawk.Uri

/-! ## Addresses -/

theorem matchHostPort_eq_some {host : Str → Bool} {s address : Str} {port : ℕ}
    (h : matchHostPort host s = some (address, port)) : host address = true := by
  unfold matchHostPort at h
  obtain ⟨colon, -, h⟩ := Option.bind_eq_some_iff.mp h
  dsimp only at h
  split_ifs at h with hhost
  obtain ⟨_, -, heq⟩ := Option.map_eq_some_iff.mp h
  cases heq
  exact (Bool.and_eq_true _ _ ▸ hhost).1

/-- What the three patterns have in common. -/
structure IsAddress (address : Str) : Prop where
  ne : address ≠ []
  noSlash : '/' ∉ address
  bracket : address.head? = some '[' → ∃ inner, address = '[' :: inner ++ [']'] ∧ ']' ∉ inner
  colon : address.head? ≠ some '[' → ':' ∉ address

theorem head?_ne_of_not_mem {c : Char} {s : Str} (h : c ∉ s) : s.head? ≠ some c :=
  fun hhead => h (List.mem_of_head? hhead)

theorem isAddress_of_plain {address : Str} (hne : address ≠ []) (hslash : '/' ∉ address)
    (hopen : '[' ∉ address)
    (hcolon : ':' ∉ address) : IsAddress address where
  ne := hne
  noSlash := hslash
  bracket hhead := absurd hhead (head?_ne_of_not_mem hopen)
  colon _ := hcolon

theorem isAddress_of_isV4 {address : Str} (h : isV4 address = true) : IsAddress address := by
  simp only [isV4, Bool.and_eq_true, List.all_eq_true, decide_eq_true_eq] at h
  obtain ⟨hlength, hgroups⟩ := h
  have hnot : ∀ c : Char, c ≠ '.' → c.isDigit = false → c ∉ address := by
    intro c hdot hdigit hc
    obtain ⟨group, hgroup, hmem⟩ := Text.exists_mem_splitOn hc hdot
    rw [(hgroups group hgroup).2 c hmem] at hdigit
    cases hdigit
  refine isAddress_of_plain ?_ (hnot '/' (by decide) rfl) (hnot '[' (by decide) rfl)
    (hnot ':' (by decide) rfl)
  rintro rfl
  revert hlength
  decide

theorem isAddress_of_isDnsName {address : Str} (h : isDnsName address = true) : IsAddress address := by
  simp only [isDnsName, Bool.and_eq_true, List.all_eq_true, decide_eq_true_eq] at h
  obtain ⟨hne, hall⟩ := h
  exact isAddress_of_plain hne (fun hc => absurd (hall _ hc) (by decide))
    (fun hc => absurd (hall _ hc) (by decide))
    (fun hc => absurd (hall _ hc) (by decide))

theorem isAddress_of_isBracketed {address : Str} (h : isBracketed address = true) : IsAddress address := by
  simp only [isBracketed, Bool.and_eq_true, List.all_eq_true, decide_eq_true_eq] at h
  obtain ⟨⟨haddress, -⟩, hall⟩ := h
  generalize address.tail.dropLast = inner at haddress hall
  have hnot : ∀ c : Char, (c = '.' || c = ':' || isHexDigit c) = false → c ∉ inner := by
    intro c hc hmem
    rw [hall c hmem] at hc
    cases hc
  subst haddress
  refine ⟨by simp, ?_, fun _ => ⟨inner, rfl, hnot ']' (by decide)⟩, fun hhead => absurd rfl hhead⟩
  simpa using hnot '/' (by decide)

theorem isAddress_of_parseHostPort {hostPort address : Str} {port : ℕ}
    (h : parseHostPort hostPort = some (address, port)) : IsAddress address := by
  simp only [parseHostPort, Option.orElse_eq_some] at h
  rcases h with h | ⟨-, h | ⟨-, h⟩⟩
  · exact isAddress_of_isV4 (matchHostPort_eq_some h)
  · exact isAddress_of_isBracketed (matchHostPort_eq_some h)
  · exact isAddress_of_isDnsName (matchHostPort_eq_some h)

/-! ## An address with a port -/

theorem IsAddress.findPortSeparator_eq_none {address : Str} (h : IsAddress address) :
    findPortSeparator address = none := by
  unfold findPortSeparator
  split_ifs with hopen
  · obtain ⟨inner, rfl, hinner⟩ := h.bracket hopen
    have hnone : ('[' :: inner).findIdx? (· = ']') = none := by
      rw [List.findIdx?_eq_none_iff]
      intro c hc
      simp only [decide_eq_false_iff_not]
      rintro rfl
      simp [hinner] at hc
    have hclose : ('[' :: inner ++ [']']).findIdx? (· = ']') = some ('[' :: inner).length := by
      rw [List.findIdx?_append, hnone]
      simp [List.findIdx?_cons]
    rw [hclose, Option.bind_some, List.drop_left' rfl]
    rfl
  · exact Text.rfind_eq_none.mpr (h.colon hopen)

theorem IsAddress.closed {address : Str} (h : IsAddress address) : Closed address := by
  intro hopen
  obtain ⟨inner, rfl, -⟩ := h.bracket hopen
  simp

/-- What is read as the port when more text follows it. -/
def portText (address digits more : Str) : Str :=
  match if address.head? = some '[' then none else Text.rfind ':' more with
  | none => digits ++ more
  | some colon => more.drop (colon + 1)

theorem portText_nil (address digits : Str) : portText address digits [] = digits := by
  have hnone : (if address.head? = some '[' then none else Text.rfind ':' []) = none := ite_self _
  rw [portText, hnone]
  exact List.append_nil digits

theorem findPortSeparator_address {address digits : Str} (h : IsAddress address) (hdigits : ':' ∉ digits)
    (more : Str) :
    ∃ host, host ++ ':' :: portText address digits more = address ++ ':' :: (digits ++ more) ∧
      findPortSeparator (address ++ ':' :: (digits ++ more)) = some host.length ∧
      host.head? = address.head? ∧ (more = [] → host = address) := by
  unfold portText
  split
  · rename_i hnone
    refine ⟨address, rfl, findPortSeparator_append h.ne h.findPortSeparator_eq_none h.closed ?_,
      rfl, fun _ => rfl⟩
    intro hopen
    rw [if_neg hopen, Text.rfind_eq_none] at hnone
    simp [hdigits, hnone]
  · rename_i colon hsome
    split_ifs at hsome with hopen
    -- The last colon stands in what follows the port.
    obtain ⟨before, after, rfl, hafter, rfl⟩ := Text.rfind_eq_some hsome
    have hhead : (address ++ ':' :: (digits ++ before)).head? = address.head? := by
      rw [List.head?_append_of_ne_nil _ h.ne]
    have hdrop : (before ++ ':' :: after).drop (before.length + 1) = after := by
      rw [List.append_cons]
      exact List.drop_left' (by simp)
    have happend : address ++ ':' :: (digits ++ (before ++ ':' :: after)) =
        (address ++ ':' :: (digits ++ before)) ++ ':' :: after := by simp
    refine ⟨address ++ ':' :: (digits ++ before), ?_, ?_, hhead, fun hnil => by simp at hnil⟩
    · rw [hdrop, happend]
    · rw [happend, findPortSeparator, if_neg, Text.rfind_append ':' _ hafter]
      rwa [List.head?_append_of_ne_nil _ (by simp), hhead]

end Nighthawk.Uri

namespace Nighthawk.Bootstrap

open Options Uri

/-! ## Multi-target endpoints -/

theorem multiTargetScheme_valid (useHttps : Bool) :
    ':' ∉ multiTargetScheme useHttps ∧
      Text.toLower (multiTargetScheme useHttps) = multiTargetScheme useHttps ∧
      (multiTargetScheme useHttps = "http".toList ∨ multiTargetScheme useHttps = "https".toList) := by
  cases useHttps <;> decide

theorem create_multiTargetUri {address : Str} (h : IsAddress address) (useHttps : Bool)
    (path : Str) (port : ℕ) :
    UriImpl.create (multiTargetUri useHttps path address port) "http".toList =
      UriImpl.ofParts (address ++ ':' :: (Text.decimal port ++ path.takeWhile (· ≠ '/')))
        (multiTargetScheme useHttps) (pathOf path) := by
  have hall : ∀ c ∈ address ++ ':' :: Text.decimal port, decide (c ≠ '/') = true := by
    intro c hc
    simp only [decide_eq_true_eq]
    rintro rfl
    simp [h.noSlash, UriImpl.not_mem_decimal] at hc
  have htext : multiTargetUri useHttps path address port =
      withScheme (multiTargetScheme useHttps) (address ++ ':' :: Text.decimal port ++ path) := by
    simp [multiTargetUri, withScheme]
  obtain ⟨hcolon, hlower, -⟩ := multiTargetScheme_valid useHttps
  rw [htext, UriImpl.create_withScheme hcolon, hlower, pathOf, List.takeWhile_append_of_pos hall,
    List.dropWhile_append_of_pos hall, List.append_assoc]
  rfl

/-- The text before the first slash of the path makes a port. -/
def ReadsOn (address : Str) (port : ℕ) (path : Str) : Prop :=
  address.head? ≠ some '-' ∧ ∃ n,
    Text.parseUnsigned (2 ^ 64 - 1)
      (portText address (Text.decimal port) (path.takeWhile (· ≠ '/'))) = some n ∧
      0 < n ∧ n ≤ 65535

theorem makeUri_multiTargetUri {address : Str} (h : IsAddress address) (useHttps : Bool)
    (path : Str) (port : ℕ) :
    ∃ host hostAndPort, host.head? = address.head? ∧ (path.takeWhile (· ≠ '/') = [] → host = address) ∧
      ∀ u, makeUri (multiTargetUri useHttps path address port) = .ok u ↔ ∃ n,
        Text.parseUnsigned (2 ^ 64 - 1)
          (portText address (Text.decimal port) (path.takeWhile (· ≠ '/'))) = some n ∧
          u = ⟨hostAndPort, host, pathOf path, n, multiTargetScheme useHttps⟩ ∧ u.isValid = true := by
  obtain ⟨host, htext, hsep, hhead, hhost⟩ :=
    findPortSeparator_address h (UriImpl.not_mem_decimal rfl port) (path.takeWhile (· ≠ '/'))
  refine ⟨host, host ++ ':' :: portText address (Text.decimal port) (path.takeWhile (· ≠ '/')), hhead,
    hhost, fun u => ?_⟩
  rw [← htext] at hsep
  rw [makeUri, Fallible.mapError_eq_ok, create_multiTargetUri h, ← htext, UriImpl.ofParts_of_separator hsep]

theorem readsOn_iff {address : Str} (h : IsAddress address) (useHttps : Bool) (path : Str) (port : ℕ) :
    ReadsOn address port path ↔ ∃ u, makeUri (multiTargetUri useHttps path address port) = .ok u := by
  obtain ⟨host, hostAndPort, hhead, -, hmake⟩ := makeUri_multiTargetUri h useHttps path port
  have hne : host ≠ [] := by
    rintro rfl
    exact h.ne (List.head?_eq_none_iff.mp hhead.symm)
  have hvalid : ∀ n, (UriImpl.mk hostAndPort host (pathOf path) n (multiTargetScheme useHttps)).isValid =
    true ↔
      address.head? ≠ some '-' ∧ 0 < n ∧ n ≤ 65535 := by
    intro n
    rw [UriImpl.isValid_iff, ← hhead]
    constructor
    · rintro ⟨-, hrange, -, hdash⟩
      exact ⟨hdash, hrange⟩
    · rintro ⟨hdash, hrange⟩
      exact ⟨(multiTargetScheme_valid useHttps).2.2.imp_right .inl, hrange, hne, hdash⟩
  simp only [hmake]
  constructor
  · rintro ⟨hdash, n, hn, hrange⟩
    exact ⟨_, n, hn, rfl, (hvalid n).mpr ⟨hdash, hrange⟩⟩
  · rintro ⟨_, n, hn, rfl, hv⟩
    obtain ⟨hdash, hrange⟩ := (hvalid n).mp hv
    exact ⟨hdash, n, hn, hrange⟩

/-- The URI of an endpoint is rejected, or it has the endpoint's address, its port and the path. -/
def KeepsEndpoint (o : OptionsImpl) (address : Str) (port : ℕ) : Prop :=
  ∀ u, makeUri (endpointUri o ⟨some address, some (UInt32.ofNat port)⟩) = .ok u →
    u.hostWithoutPort = address ∧ u.port = port ∧ u.path = o.multiTargetPath

/-- The endpoint is kept for a path that starts with a slash. The text before the first slash of
another path is taken for a part of the port or of the host, so the endpoint is kept only when the
URI is rejected for it. -/
theorem keepsEndpoint_iff (o : OptionsImpl) (hostPort address : Str) (port : ℕ)
    (h : parseHostPort hostPort = some (address, port)) (hport : port ≤ 65535) :
    KeepsEndpoint o address port ↔
      o.multiTargetPath.head? = some '/' ∨ ¬ReadsOn address port o.multiTargetPath := by
  have haddress := isAddress_of_parseHostPort h
  have htext : endpointUri o ⟨some address, some (UInt32.ofNat port)⟩ =
      multiTargetUri o.multiTargetUseHttps o.multiTargetPath address port := by
    rw [endpointUri, Option.getD_some, Option.getD_some,
      UInt32.toNat_ofNat_of_lt' (hport.trans_lt (by decide))]
  rw [KeepsEndpoint, htext]
  generalize o.multiTargetUseHttps = useHttps, o.multiTargetPath = path
  obtain ⟨host, hostAndPort, -, hhost, hmake⟩ := makeUri_multiTargetUri haddress useHttps path port
  constructor
  · intro hkeeps
    by_contra hnot
    obtain ⟨hslash, hreads⟩ := not_or.mp hnot
    obtain ⟨u, hu⟩ := (readsOn_iff haddress useHttps path port).mp (not_not.mp hreads)
    obtain ⟨n, -, rfl, -⟩ := (hmake u).mp hu
    -- The path that was read starts with a slash.
    apply hslash
    rw [← (hkeeps _ hu).2.2]
    exact head?_pathOf path
  · rintro (hslash | hrejected) u hu
    · obtain ⟨hmore, hpathOf⟩ := takeWhile_append_path List.not_mem_nil hslash
      rw [List.nil_append] at hmore hpathOf
      obtain ⟨n, hn, rfl, -⟩ := (hmake u).mp hu
      rw [hmore, portText_nil, UriImpl.parseUnsigned_decimal (hport.trans (by omega))] at hn
      exact ⟨hhost hmore, (Option.some.inj hn).symm, hpathOf⟩
    · exact absurd ((readsOn_iff haddress useHttps path port).mpr ⟨u, hu⟩) hrejected

theorem keepsEndpoint_ipv6 :
    ∃ o,
      fromArgs plainEnv { multiTargetEndpoints := ["[::1]:80".toList], multiTargetPath := some "/a".toList } = .ok o ∧
      KeepsEndpoint o "[::1]".toList 80 := by
  refine ⟨_, rfl, (keepsEndpoint_iff _ "[::1]:80".toList _ _ rfl (by decide)).mpr (.inl rfl)⟩

/-- A path of digits goes on with the port, and a path with a colon replaces it. -/
theorem path_changes_port :
    ∃ o o' u u',
      fromArgs plainEnv { multiTargetEndpoints := ["a:80".toList], multiTargetPath := some "5/b".toList } = .ok o ∧
      fromArgs plainEnv { multiTargetEndpoints := ["a:80".toList], multiTargetPath := some ":90".toList } = .ok o' ∧
      makeTargetUris o = .ok [u] ∧ makeTargetUris o' = .ok [u'] ∧
      u.hostWithoutPort = ['a'] ∧ u.port = 805 ∧ u.path = "/b".toList ∧
      u'.hostWithoutPort = "a:80".toList ∧ u'.port = 90 ∧ u'.path = ['/'] ∧
      ¬KeepsEndpoint o ['a'] 80 ∧ ¬KeepsEndpoint o' ['a'] 80 := by
  refine ⟨_, _, _, _, rfl, rfl, rfl, rfl, rfl, rfl, rfl, rfl, rfl, rfl, ?_, ?_⟩
  · intro hkeeps
    exact absurd (hkeeps _ rfl).2.1 (by decide)
  · intro hkeeps
    exact absurd (hkeeps _ rfl).2.1 (by decide)

/-! ## The request source -/

theorem validateRequestSource_eq_ok {source : Str} (hne : source ≠ [])
    (h : validateRequestSource source = .ok ()) :
    ∃ validated, UriImpl.create source "grpc".toList = .ok validated := by
  rw [validateRequestSource, if_neg hne] at h
  split at h
  · cases h
  · exact ⟨_, ‹_›⟩

theorem create_of_scheme {uri : Str} (h : Text.find "://".toList uri ≠ none) (d d' : Str) :
    UriImpl.create uri d = UriImpl.create uri d' := by
  unfold UriImpl.create
  cases hfind : Text.find "://".toList uri with
  | none => exact absurd hfind h
  | some schemeEnd => rfl

theorem create_of_no_scheme {uri : Str} (h : Text.find "://".toList uri = none) (d : Str) :
    UriImpl.create uri d =
      UriImpl.ofParts (extractHostPathFromUri uri).1 d (extractHostPathFromUri uri).2 := by
  unfold UriImpl.create
  rw [h]
  rfl

theorem makeAndResolve_eq_ok {dns : DnsResolver} {o : OptionsImpl} {uri : Str} {result : Option UriImpl}
    (h : makeAndResolve dns o true uri = .ok result) : ∃ u, makeUri uri = .ok u ∧ result = some u := by
  obtain ⟨u, hu, h⟩ := Fallible.bind_eq_ok.mp h
  obtain ⟨_, -, h⟩ := Fallible.bind_eq_ok.mp h
  obtain ⟨-, h⟩ := Fallible.check_bind_eq_ok.mp h
  exact ⟨u, hu, (Except.ok.inj h).symm⟩

theorem requestSourceUri_eq {dns : DnsResolver} {o : OptionsImpl} {uris : Uris}
    (hsource : o.requestSource ≠ [])
    (h : extractAndResolveUrisFromOptions dns o = some (.ok uris)) :
    ∃ u, makeUri o.requestSource = .ok u ∧ uris.requestSourceUri = some u := by
  have hmake : makeUris dns o = .ok uris := by
    unfold extractAndResolveUrisFromOptions at h
    split at h
    · cases h
      assumption
    · cases h
    · cases h
  unfold makeUris at hmake
  obtain ⟨_, -, hmake⟩ := Fallible.bind_eq_ok.mp hmake
  obtain ⟨-, hmake⟩ := Fallible.check_bind_eq_ok.mp hmake
  obtain ⟨_, -, hmake⟩ := Fallible.bind_eq_ok.mp hmake
  obtain ⟨source, hresolve, hmake⟩ := Fallible.bind_eq_ok.mp hmake
  rw [decide_eq_true hsource] at hresolve
  obtain ⟨u, hu, rfl⟩ := makeAndResolve_eq_ok hresolve
  cases hmake
  exact ⟨u, hu, rfl⟩

/-- The URI that is contacted is accepted, with the host and the port of the one that was validated. -/
def ContactsValidated (o : OptionsImpl) : Prop :=
  ∃ validated built, UriImpl.create o.requestSource "grpc".toList = .ok validated ∧
    makeUri o.requestSource = .ok built ∧
    built.hostWithoutPort = validated.hostWithoutPort ∧ built.port = validated.port ∧
    ∀ dns uris, extractAndResolveUrisFromOptions dns o = some (.ok uris) → uris.requestSourceUri = some built

theorem contactsValidated_of_makeUri {o : OptionsImpl} {validated built : UriImpl}
    (hsource : o.requestSource ≠ [])
    (hvalidated : UriImpl.create o.requestSource "grpc".toList = .ok validated)
    (hbuilt : makeUri o.requestSource = .ok built) (hhost : built.hostWithoutPort = validated.hostWithoutPort)
    (hport : built.port = validated.port) : ContactsValidated o := by
  refine ⟨validated, built, hvalidated, hbuilt, hhost, hport, ?_⟩
  intro dns uris huris
  obtain ⟨u, hu, hsome⟩ := requestSourceUri_eq hsource huris
  rw [hsome, Except.ok.inj (hu.symm.trans hbuilt)]

/-- The two default schemes have different ports, so the request source is contacted where it was
validated exactly when it names its scheme or its port. -/
theorem contactsValidated_iff (env : Env) (o : OptionsImpl) (h : validate env o = .ok ())
    (hsource : o.requestSource ≠ []) :
    ContactsValidated o ↔ Text.find "://".toList o.requestSource ≠ none ∨
      findPortSeparator (extractHostPathFromUri o.requestSource).1 ≠ none := by
  obtain ⟨validated, hvalidated⟩ := validateRequestSource_eq_ok hsource (validate_eq_ok.mp h).2.2.1
  by_cases hfind : Text.find "://".toList o.requestSource ≠ none
  · refine iff_of_true (contactsValidated_of_makeUri hsource hvalidated ?_ rfl rfl) (.inl hfind)
    rw [makeUri, create_of_scheme hfind _ "grpc".toList, hvalidated]
    rfl
  · have hfind := not_not.mp hfind
    obtain ⟨hne, hsplit, hvalid⟩ :=
      UriImpl.ofParts_eq_ok.mp ((create_of_no_scheme hfind _).symm.trans hvalidated)
    rcases UriImpl.splitPort_eq_ok.mp hsplit with ⟨hnone, hu⟩ | ⟨colon, port, hcolon, hport, hu⟩
    · refine iff_of_false ?_ (not_or.mpr ⟨not_not.mpr hfind, not_not.mpr hnone⟩)
      rintro ⟨validated', built, hvalidated', hbuilt, -, hport, -⟩
      rw [hvalidated] at hvalidated'
      cases hvalidated'
      rw [makeUri, Fallible.mapError_eq_ok, create_of_no_scheme hfind] at hbuilt
      obtain ⟨-, hsplit', -⟩ := UriImpl.ofParts_eq_ok.mp hbuilt
      rcases UriImpl.splitPort_eq_ok.mp hsplit' with ⟨-, hu'⟩ | ⟨_, _, hcolon, -⟩
      · rw [hu, hu'] at hport
        have hports : UriImpl.defaultPort "http".toList ≠ UriImpl.defaultPort "grpc".toList := by decide
        exact hports hport
      · rw [hnone] at hcolon
        cases hcolon
    · refine iff_of_true ?_ (.inr (by simp [hcolon]))
      have hbuilt : makeUri o.requestSource = .ok { validated with scheme := "http".toList } := by
        rw [makeUri, Fallible.mapError_eq_ok, create_of_no_scheme hfind]
        refine UriImpl.ofParts_eq_ok.mpr ⟨hne, ?_, ?_⟩
        · exact UriImpl.splitPort_eq_ok.mpr (.inr ⟨colon, port, hcolon, hport, by rw [hu]⟩)
        · exact UriImpl.isValid_iff.mpr ⟨.inl rfl, (UriImpl.isValid_iff.mp hvalid).2⟩
      exact contactsValidated_of_makeUri hsource hvalidated hbuilt rfl rfl

def withRequestSource (source : Str) : Args := { uri := some "http://a".toList, requestSource := some source }

theorem contactsValidated_port_given :
    ∃ o, fromArgs plainEnv (withRequestSource "b:90".toList) = .ok o ∧ ContactsValidated o :=
  ⟨_, rfl, (contactsValidated_iff plainEnv _ rfl (by decide)).mpr (.inr (by decide))⟩

/-- A bare host is validated with the port of `grpc` and contacted on the port of `http`. -/
theorem bare_host_contacted_on_80 :
    ∃ o validated built, fromArgs plainEnv (withRequestSource "b".toList) = .ok o ∧
      UriImpl.create o.requestSource "grpc".toList = .ok validated ∧ makeUri o.requestSource = .ok built ∧
      validated.port = 8443 ∧ built.port = 80 ∧
      (extractAndResolveUrisFromOptions (fun _ _ => some .v4) o).map (·.map (·.requestSourceUri)) =
        some (.ok (some built)) ∧
      ¬ContactsValidated o := by
  refine ⟨_, _, _, rfl, rfl, rfl, rfl, rfl, rfl, ?_⟩
  rintro ⟨validated, built, hvalidated, hbuilt, -, hport, -⟩
  cases hvalidated
  cases hbuilt
  exact absurd hport (by decide)

end Nighthawk.Bootstrap
