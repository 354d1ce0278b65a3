import Nighthawk.Bootstrap.Code
import Nighthawk.Uri.Reformat

/-!
# The server name that is asked for

The scan of the raw header strings against the headers that the options make of them.
-/

namespace Nighthawk.Uri

def withoutPort (host : Str) : Str :=
  match findPortSeparator host with
  | none => host
  | some colon => host.take colon

theorem UriImpl.create_hostWithoutPort {uri defaultScheme : Str} {u : UriImpl}
    (h : create uri defaultScheme = .ok u) :
    u.hostWithoutPort = withoutPort (extractHostPathFromUri uri).1 := by
  obtain ⟨scheme, hparts⟩ : ∃ scheme,
      create uri defaultScheme =
        ofParts (extractHostPathFromUri uri).1 scheme (extractHostPathFromUri uri).2 := ⟨_, rfl⟩
  rw [hparts] at h
  unfold withoutPort
  rcases splitPort_eq_ok.mp (ofParts_eq_ok.mp h).2.1 with ⟨hnone, rfl⟩ | ⟨_, _, hcolon, -, rfl⟩
  · rw [hnone]
  · rw [hcolon]

theorem findPortSeparator_lt {host : Str} {colon : ℕ} (h : findPortSeparator host = some colon) :
    colon < host.length := by
  unfold findPortSeparator at h
  split_ifs at h
  · obtain ⟨close, -, h⟩ := Option.bind_eq_some_iff.mp h
    obtain ⟨offset, hoffset, rfl⟩ := Option.map_eq_some_iff.mp h
    have hlt := (List.findIdx?_eq_some_iff_findIdx_eq.mp hoffset).1
    rw [List.length_drop] at hlt
    omega
  · obtain ⟨before, after, rfl, -, rfl⟩ := Text.rfind_eq_some h
    simp

theorem withoutPort_eq_self {host : Str} : withoutPort host = host ↔ findPortSeparator host = none := by
  unfold withoutPort
  split
  · rename_i hnone
    exact iff_of_true rfl hnone
  · rename_i colon hcolon
    refine iff_of_false ?_ (by simp [hcolon])
    intro heq
    have hlength := congrArg List.length heq
    rw [List.length_take_of_le (findPortSeparator_lt hcolon).le] at hlength
    exact (findPortSeparator_lt hcolon).ne hlength

theorem count_withoutPort {host : Str} (hopen : host.head? ≠ some '[') (hcolon : ':' ∈ host) :
    (withoutPort host).count ':' + 1 = host.count ':' := by
  unfold withoutPort
  rw [findPortSeparator, if_neg hopen]
  cases hfind : Text.rfind ':' host with
  | none => exact absurd hcolon (Text.rfind_eq_none.mp hfind)
  | some colon =>
    obtain ⟨before, after, rfl, hafter, rfl⟩ := Text.rfind_eq_some hfind
    simp [List.count_eq_zero_of_not_mem hafter]

end Nighthawk.Uri

namespace Nighthawk.Bootstrap

open Options Uri
open BenchmarkClient (Protocol)
open Counters (stripPrefix)

/-! ## The headers -/

def isHostName (protocol : Protocol) (key : Str) : Bool :=
  Text.toLower key = "host".toList || (Text.toLower key = ":authority".toList && considersAuthority protocol)

/-- The host that the options read from a header. -/
def hostValue (protocol : Protocol) (header : Str) : Option Str :=
  (splitHeader header).bind fun (key, value) => if isHostName protocol key then some value else none

/-- The name and its colon stand at the start, without a blank. -/
def NamedTightly (header : Str) : Prop :=
  ∃ name rest, header = name ++ ':' :: rest ∧
    (Text.toLower name = "host".toList ∨ Text.toLower name = ":authority".toList)

theorem toLower_append (name rest : Str) :
    Text.toLower (name ++ ':' :: rest) = Text.toLower name ++ ':' :: Text.toLower rest := by
  simp [Text.toLower]

theorem prefix_toLower_iff (name header : Str) :
    (name ++ [':']).isPrefixOf (Text.toLower header) = true ↔
      ∃ spelled rest, header = spelled ++ ':' :: rest ∧ Text.toLower spelled = name := by
  rw [List.isPrefixOf_iff_prefix]
  constructor
  · rintro ⟨tail, htail⟩
    rw [List.append_assoc] at htail
    obtain ⟨spelled, front, rfl, hname, hfront⟩ := List.map_eq_append_iff.mp htail.symm
    obtain ⟨colon, rest, rfl, hcolon, -⟩ := List.map_eq_cons_iff.mp hfront
    rw [Text.eq_of_toLower_eq hcolon (by decide)]
    exact ⟨spelled, rest, rfl, hname⟩
  · rintro ⟨spelled, rest, rfl, rfl⟩
    exact ⟨Text.toLower rest, by rw [toLower_append]; simp⟩

theorem isHostHeader_iff {protocol : Protocol} {header : Str} :
    isHostHeader protocol (Text.toLower header) = true ↔
      ∃ name rest, header = name ++ ':' :: rest ∧ isHostName protocol name = true := by
  have hhost := prefix_toLower_iff "host".toList header
  have hauthority := prefix_toLower_iff ":authority".toList header
  simp only [isHostHeader, isHostName, Bool.or_eq_true, Bool.and_eq_true, decide_eq_true_eq]
  constructor
  · rintro (h | ⟨h, hconsiders⟩)
    · obtain ⟨name, rest, heq, hname⟩ := hhost.mp h
      exact ⟨name, rest, heq, .inl hname⟩
    · obtain ⟨name, rest, heq, hname⟩ := hauthority.mp h
      exact ⟨name, rest, heq, .inr ⟨hname, hconsiders⟩⟩
  · rintro ⟨name, rest, heq, hname | ⟨hname, hconsiders⟩⟩
    · exact .inl (hhost.mpr ⟨name, rest, heq, hname⟩)
    · exact .inr ⟨hauthority.mpr ⟨name, rest, heq, hname⟩, hconsiders⟩

theorem hostName_cases {protocol : Protocol} {name : Str} (h : isHostName protocol name = true) :
    Text.toLower name = "host".toList ∨ Text.toLower name = ":authority".toList := by
  simp only [isHostName, Bool.or_eq_true, Bool.and_eq_true, decide_eq_true_eq] at h
  exact h.imp_right And.left

theorem strip_hostName {name : Str}
    (h : Text.toLower name = "host".toList ∨ Text.toLower name = ":authority".toList) :
    Text.strip name = name := by
  refine Text.strip_eq_self fun c hc => ?_
  have hmem : c.toLower ∈ Text.toLower name := List.mem_map_of_mem hc
  rw [← Text.isSpace_toLower]
  have hplain : ∀ d ∈ "host".toList ++ ":authority".toList, (!Text.isSpace d) = true :=
    List.all_eq_true.mp rfl
  simp only [Bool.not_eq_true'] at hplain
  rcases h with h | h <;> rw [h] at hmem
  · exact hplain _ (List.mem_append_left _ hmem)
  · exact hplain _ (List.mem_append_right _ hmem)

theorem splitHeader_hostName {name : Str}
    (h : Text.toLower name = "host".toList ∨ Text.toLower name = ":authority".toList)
    (rest : Str) : splitHeader (name ++ ':' :: rest) = some (name, Text.strip rest) := by
  cases name with
  | nil => rcases h with h | h <;> cases h
  | cons c tail =>
    have hcolon : ':' ∉ tail := by
      intro hc
      have hmem : ':' ∈ tail.map Char.toLower := List.mem_map_of_mem (f := Char.toLower) hc
      rcases h with h | h <;> rw [(List.cons.inj h).2] at hmem <;> revert hmem <;> decide
    show (Text.cut ':' (tail ++ ':' :: rest)).map _ = _
    rw [Text.cut_append hcolon, Option.map_some]
    dsimp only
    rw [strip_hostName h]

theorem hostValue_of_hostName {protocol : Protocol} {name : Str} (h : isHostName protocol name = true)
    (rest : Str) :
    hostValue protocol (name ++ ':' :: rest) = some (Text.strip rest) := by
  rw [hostValue, splitHeader_hostName (hostName_cases h), Option.bind_some]
  exact if_pos h

theorem namedTightly_iff {protocol : Protocol} {header value : Str}
    (h : hostValue protocol header = some value) :
    NamedTightly header ↔ isHostHeader protocol (Text.toLower header) = true := by
  rw [isHostHeader_iff]
  constructor
  · rintro ⟨name, rest, rfl, hname⟩
    refine ⟨name, rest, rfl, ?_⟩
    rw [hostValue, splitHeader_hostName hname, Option.bind_some] at h
    dsimp only at h
    split_ifs at h with hhost
    exact hhost
  · rintro ⟨name, rest, heq, hname⟩
    exact ⟨name, rest, heq, hostName_cases hname⟩

/-! ## The scan -/

theorem scanHeader_of_none {protocol : Protocol} {header : Str} (h : hostValue protocol header = none)
    (found : Str × Bool) :
    scanHeader protocol found header = found := by
  refine if_neg fun hseen => ?_
  obtain ⟨name, rest, rfl, hname⟩ := isHostHeader_iff.mp hseen
  rw [hostValue_of_hostName hname] at h
  cases h

theorem foldl_scanHeader_of_none {protocol : Protocol} {headers : List Str}
    (h : ∀ header ∈ headers, hostValue protocol header = none) (found : Str × Bool) :
    headers.foldl (scanHeader protocol) found = found := by
  induction headers with
  | nil => rfl
  | cons header headers ih =>
    rw [List.foldl_cons, scanHeader_of_none (h header List.mem_cons_self)]
    exact ih fun other hother => h other (List.mem_cons_of_mem _ hother)

/-- What is read from a header that is seen: its value in lower case, unless the value itself starts
like an authority header. -/
theorem scanHeader_of_seen {protocol : Protocol} {header value : Str}
    (h : hostValue protocol header = some value)
    (hseen : isHostHeader protocol (Text.toLower header) = true) :
    ∃ host, scanHeader protocol ([], false) header = (host, false) ∧ (host = Text.toLower value ∨
      ∃ rest, Text.toLower value = Text.strip (":authority:".toList ++ rest) ∧ host = Text.strip rest) := by
  refine ⟨_, if_pos hseen, ?_⟩
  obtain ⟨name, rest, rfl, hname⟩ := isHostHeader_iff.mp hseen
  rw [hostValue_of_hostName hname] at h
  cases h
  rw [toLower_append, ← Text.strip_toLower]
  have hstrip : ∀ pre s : Str, stripPrefix (pre ++ s) pre = s := by
    intro pre s
    rw [stripPrefix, if_pos (List.isPrefixOf_iff_prefix.mpr (List.prefix_append _ _)), List.drop_left]
  rcases hostName_cases hname with hhost | hauthority
  · rw [hhost, show "host".toList ++ ':' :: Text.toLower rest =
      "host:".toList ++ Text.toLower rest from rfl, hstrip]
    unfold stripPrefix
    split_ifs with hpre
    · obtain ⟨tail, htail⟩ := List.isPrefixOf_iff_prefix.mp hpre
      rw [← htail, List.drop_left]
      exact .inr ⟨tail, rfl, rfl⟩
    · exact .inl rfl
  · rw [hauthority, show ":authority".toList ++ ':' :: Text.toLower rest =
      ":authority:".toList ++ Text.toLower rest from rfl,
        show stripPrefix (":authority:".toList ++ Text.toLower rest) "host:".toList =
        ":authority:".toList ++ Text.toLower rest from rfl, hstrip]
    exact .inl rfl

theorem count_authority (rest : Str) :
    (Text.strip (":authority:".toList ++ rest)).count ':' = (Text.strip rest).count ':' + 2 ∧
      (withoutPort (Text.strip (":authority:".toList ++ rest))).count ':' =
        (Text.strip rest).count ':' + 1 := by
  have hcount : (Text.strip (":authority:".toList ++ rest)).count ':' = (Text.strip rest).count ':' + 2 := by
    rw [Text.count_strip (by decide), Text.count_strip (by decide), List.count_append, Nat.add_comm]
    rfl
  have hmem : ':' ∈ Text.strip (":authority:".toList ++ rest) := by
    rw [← List.count_pos_iff, hcount]
    omega
  have hopen : (Text.strip (":authority:".toList ++ rest)).head? ≠ some '[' := by
    obtain ⟨tail, htail⟩ : Text.strip (":authority:".toList ++ rest) <+: ":authority:".toList ++ rest :=
      List.rdropWhile_prefix _ _
    intro hhead
    have hfirst := congrArg List.head? htail
    rw [List.head?_append, hhead] at hfirst
    cases hfirst
  refine ⟨hcount, ?_⟩
  have hcolons := count_withoutPort hopen hmem
  omega

section

variable {protocol : Protocol} {before after : List Str} {header value : Str}

theorem computeSniHost_of_only (hbefore : ∀ other ∈ before, hostValue protocol other = none)
    (hafter : ∀ other ∈ after, hostValue protocol other = none) {host : Str}
    (hhost : scanHeader protocol ([], false) header = (host, false)) (uris : List UriImpl) :
    computeSniHost uris (before ++ header :: after) protocol = if host = [] then uriSni uris else host := by
  rw [computeSniHost, List.foldl_append, List.foldl_cons, foldl_scanHeader_of_none hbefore, hhost,
    foldl_scanHeader_of_none hafter]
  rfl

theorem exists_namedTightly_iff (hbefore : ∀ other ∈ before, hostValue protocol other = none)
    (hafter : ∀ other ∈ after, hostValue protocol other = none)
    (hheader : hostValue protocol header = some value) :
    (∃ other ∈ before ++ header :: after, hostValue protocol other = some value ∧ NamedTightly other) ↔
      NamedTightly header := by
  constructor
  · rintro ⟨other, hmem, hsome, hnamed⟩
    rcases List.mem_append.mp hmem with hmem | hmem
    · rw [hbefore _ hmem] at hsome
      cases hsome
    · rcases List.mem_cons.mp hmem with rfl | hmem
      · exact hnamed
      · rw [hafter _ hmem] at hsome
        cases hsome
  · intro hnamed
    exact ⟨header, by simp, hheader, hnamed⟩

end

/-- URIs that the constructor accepts. -/
def Accepted (uris : List UriImpl) : Prop :=
  ∀ u ∈ uris, ∃ uri defaultScheme, UriImpl.create uri defaultScheme = .ok u

theorem not_forall_uriSni (host : Str) : ¬∀ uris, Accepted uris → uriSni uris = host := by
  intro h
  obtain ⟨a, ha, hsni⟩ :
    ∃ a, UriImpl.create "a".toList "http".toList = .ok a ∧ uriSni [a] = ['a'] := ⟨_, rfl, rfl⟩
  have hnone := h [] (by simp [Accepted])
  have hone := h [a] fun u hu => ⟨_, _, (List.mem_singleton.mp hu) ▸ ha⟩
  rw [← hnone, hsni] at hone
  cases hone

/-- The server name is the host that is requested exactly when the header's name is spelled tightly
and its value has no port. Blanks hide the header, and a port is kept. -/
theorem sni_matches_host_iff (protocol : Protocol) (headers : List Str) (value : Str)
    (h : headers.filterMap (hostValue protocol) = [value]) (hvalue : value ≠ []) :
    (∀ uris, Accepted uris → computeSniHost uris headers protocol = withoutPort (Text.toLower value)) ↔
      (∃ header ∈ headers, hostValue protocol header = some value ∧ NamedTightly header) ∧
        findPortSeparator (Text.toLower value) = none := by
  obtain ⟨before, header, after, rfl, hbefore, hheader, hafter⟩ := List.filterMap_eq_cons_iff.mp h
  have hafter := List.filterMap_eq_nil_iff.mp hafter
  have hne : Text.toLower value ≠ [] := by simpa [Text.toLower] using hvalue
  rw [exists_namedTightly_iff hbefore hafter hheader, namedTightly_iff hheader]
  by_cases hseen : isHostHeader protocol (Text.toLower header) = true
  · obtain ⟨host, hhost, rfl | ⟨rest, hrest, rfl⟩⟩ := scanHeader_of_seen hheader hseen
    · simp only [computeSniHost_of_only hbefore hafter hhost, hne, if_false, hseen, true_and,
        ← withoutPort_eq_self]
      exact ⟨fun hall => (hall [] (by simp [Accepted])).symm, fun hport _ _ => hport.symm⟩
    · -- The second prefix is taken off too, and with it two colons.
      obtain ⟨hcount, hcount'⟩ := count_authority rest
      refine iff_of_false ?_ ?_
      · intro hall
        simp only [computeSniHost_of_only hbefore hafter hhost] at hall
        split_ifs at hall
        · exact not_forall_uriSni _ hall
        · rw [← hrest, ← hall [] (by simp [Accepted])] at hcount'
          omega
      · rintro ⟨-, hport⟩
        rw [← hrest, withoutPort_eq_self.mpr hport, hrest] at hcount'
        omega
  · refine iff_of_false ?_ fun hcond => hseen hcond.1
    intro hall
    have hhidden : scanHeader protocol ([], false) header = ([], false) := if_neg hseen
    simp only [computeSniHost_of_only hbefore hafter hhidden, if_true] at hall
    exact not_forall_uriSni _ hall

def withRequestHeader (header : Str) : Args := { uri := some "https://a".toList, requestHeaders := [header] }

theorem sni_matches_plain_host :
    ∃ o, fromArgs plainEnv (withRequestHeader "Host: B.com".toList) = .ok o ∧
      ∀ uris, Accepted uris → computeSniHost uris o.requestHeaders o.protocol = "b.com".toList := by
  refine ⟨_, rfl, (sni_matches_host_iff _ _ "B.com".toList rfl (by decide)).mpr ⟨?_, by decide⟩⟩
  exact ⟨_, List.mem_singleton_self _, rfl, "Host".toList, " B.com".toList, rfl, .inl rfl⟩

/-- The port stays in the server name, and a blank before the colon hides the header. -/
theorem sni_with_port_or_of_target :
    ∃ o o' uris, fromArgs plainEnv (withRequestHeader "Host: b.com:8443".toList) = .ok o ∧
      fromArgs plainEnv (withRequestHeader "Host : b.com".toList) = .ok o' ∧
      makeTargetUris o = .ok uris ∧ makeTargetUris o' = .ok uris ∧
      o.requestHeaders.filterMap (hostValue o.protocol) = ["b.com:8443".toList] ∧
      o'.requestHeaders.filterMap (hostValue o'.protocol) = ["b.com".toList] ∧
      withoutPort "b.com:8443".toList = "b.com".toList ∧ withoutPort "b.com".toList = "b.com".toList ∧
      createTransportSocket o uris =
        .generated "envoy.transport_sockets.tls".toList "http/1.1".toList [] (some "b.com:8443".toList) ∧
      createTransportSocket o' uris =
        .generated "envoy.transport_sockets.tls".toList "http/1.1".toList [] (some ['a']) :=
  ⟨_, _, _, rfl, rfl, rfl, rfl, rfl, rfl, rfl, rfl, rfl, rfl⟩

end Nighthawk.Bootstrap
