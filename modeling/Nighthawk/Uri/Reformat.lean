import Nighthawk.Lib.Fallible
import Nighthawk.Uri.Code

/-!
# Reading a formatted URI

What the constructor of `UriImpl` makes of a text that is put together from a scheme, a host and
a path.
-/

namespace Nighthawk.Uri

/-! ## The parts -/

def withScheme (scheme rest : Str) : Str := scheme ++ ("://".toList ++ rest)

theorem find_withScheme {scheme : Str} (h : ':' ∉ scheme) (rest : Str) :
    Text.find "://".toList (withScheme scheme rest) = some scheme.length :=
  Text.find_append h ['/', '/'] rest

theorem drop_withScheme (scheme rest : Str) : (withScheme scheme rest).drop (scheme.length + 3) = rest := by
  rw [withScheme, ← List.append_assoc]
  exact List.drop_left' (by simp)

def pathOf (rest : Str) : Str := if rest.dropWhile (· ≠ '/') = [] then ['/'] else rest.dropWhile (· ≠ '/')

theorem extractHostPathFromUri_withScheme {scheme : Str} (h : ':' ∉ scheme) (rest : Str) :
    extractHostPathFromUri (withScheme scheme rest) = (rest.takeWhile (· ≠ '/'), pathOf rest) := by
  unfold extractHostPathFromUri
  rw [find_withScheme h]
  simp only [drop_withScheme]
  rfl

theorem head?_pathOf (rest : Str) : (pathOf rest).head? = some '/' := by
  unfold pathOf
  split_ifs with h
  · rfl
  · have hnot := List.head?_dropWhile_not (fun c : Char => decide (c ≠ '/')) rest
    cases hrest : rest.dropWhile (· ≠ '/') with
    | nil => exact absurd hrest h
    | cons c tail =>
      rw [hrest] at hnot
      simpa using hnot

theorem takeWhile_append_path {host path : Str} (hhost : '/' ∉ host) (hpath : path.head? = some '/') :
    (host ++ path).takeWhile (· ≠ '/') = host ∧ pathOf (host ++ path) = path := by
  have hall : ∀ c ∈ host, decide (c ≠ '/') = true := by
    intro c hc
    simpa using fun heq : c = '/' => hhost (heq ▸ hc)
  obtain ⟨tail, rfl⟩ : ∃ tail, path = '/' :: tail := by
    cases path with
    | nil => cases hpath
    | cons c tail =>
      simp only [List.head?_cons, Option.some.injEq] at hpath
      exact ⟨tail, by rw [hpath]⟩
  rw [pathOf, List.takeWhile_append_of_pos hall, List.dropWhile_append_of_pos hall]
  simp

/-! ## The port -/

/-- A host that starts with a bracket has a closing one. -/
def Closed (host : Str) : Prop := host.head? = some '[' → ']' ∈ host

theorem findPortSeparator_of_not_closed {host : Str} (h : ¬Closed host) : findPortSeparator host = none := by
  obtain ⟨hopen, hclose⟩ := Classical.not_imp.mp h
  have hnone : host.findIdx? (· = ']') = none := by
    rw [List.findIdx?_eq_none_iff]
    intro c hc
    simpa using fun heq : c = ']' => hclose (heq ▸ hc)
  rw [findPortSeparator, if_pos hopen, hnone]
  rfl

theorem not_closed_append {host digits : Str} (h : ¬Closed host) (hdigits : ']' ∉ digits) :
    ¬Closed (host ++ ':' :: digits) := by
  obtain ⟨hopen, hclose⟩ := Classical.not_imp.mp h
  refine Classical.not_imp.mpr ⟨?_, ?_⟩
  · rw [List.head?_append, hopen]
    rfl
  · simp [hclose, hdigits]

theorem findPortSeparator_append {host digits : Str} (hne : host ≠ []) (hnone : findPortSeparator host = none)
    (hclosed : Closed host) (hdigits : host.head? ≠ some '[' → ':' ∉ digits) :
    findPortSeparator (host ++ ':' :: digits) = some host.length := by
  have hhead : (host ++ ':' :: digits).head? = host.head? := by
    cases host with
    | nil => exact absurd rfl hne
    | cons c rest => rfl
  unfold findPortSeparator at hnone ⊢
  rw [hhead]
  split_ifs at hnone ⊢ with hopen
  · obtain ⟨close, hclose⟩ : ∃ close, host.findIdx? (· = ']') = some close := by
      rw [← Option.isSome_iff_exists, List.findIdx?_isSome, List.any_eq_true]
      exact ⟨']', hclosed hopen, by simp⟩
    rw [hclose, Option.bind_some, Option.map_eq_none_iff] at hnone
    have hle : close ≤ host.length := (List.findIdx?_eq_some_iff_findIdx_eq.mp hclose).1.le
    rw [List.findIdx?_append, hclose, Option.some_or, Option.bind_some, List.drop_append_of_le_length hle,
      List.findIdx?_append, hnone]
    simp [List.findIdx?_cons]
    omega
  · exact Text.rfind_append ':' host (hdigits hopen)

namespace UriImpl

theorem isValid_iff {u : UriImpl} :
    u.isValid = true ↔
      (u.scheme = "http".toList ∨ u.scheme = "https".toList ∨ u.scheme = "zipkin".toList ∨
        u.scheme = "grpc".toList) ∧
        (0 < u.port ∧ u.port ≤ 65535) ∧ u.hostWithoutPort ≠ [] ∧ u.hostWithoutPort.head? ≠ some '-' := by
  simp only [isValid, Bool.and_eq_true, Bool.or_eq_true, decide_eq_true_eq, or_assoc, and_assoc]

theorem splitPort_eq_ok {host scheme path : Str} {u : UriImpl} :
    splitPort host scheme path = .ok u ↔
      (findPortSeparator host = none ∧
        u = ⟨host ++ ':' :: Text.decimal (defaultPort scheme), host, path, defaultPort scheme, scheme⟩) ∨
      ∃ colon port, findPortSeparator host = some colon ∧
        Text.parseUnsigned (2 ^ 64 - 1) (host.drop (colon + 1)) = some port ∧
        u = ⟨host, host.take colon, path, port, scheme⟩ := by
  unfold splitPort
  constructor
  · intro h
    split at h
    · exact .inl ⟨‹_›, (Except.ok.inj h).symm⟩
    · split at h
      · exact .inr ⟨_, _, ‹_›, ‹_›, (Except.ok.inj h).symm⟩
      · cases h
  · rintro (⟨hnone, rfl⟩ | ⟨colon, port, hcolon, hport, rfl⟩)
    · rw [hnone]
    · rw [hcolon]
      dsimp only
      rw [hport]

/-- The checks of the constructor once the parts are known. -/
def ofParts (host scheme path : Str) : Except String UriImpl :=
  if host = [] then .error "Invalid URI (no host)"
  else (splitPort host scheme path).bind fun u => if u.isValid then .ok u else .error "Invalid URI"

theorem create_withScheme {scheme : Str} (h : ':' ∉ scheme) (rest defaultScheme : Str) :
    create (withScheme scheme rest) defaultScheme =
      ofParts (rest.takeWhile (· ≠ '/')) (Text.toLower scheme) (pathOf rest) := by
  unfold create
  rw [extractHostPathFromUri_withScheme h, find_withScheme h]
  simp only [withScheme, List.take_left]
  rfl

theorem ofParts_eq_ok {host scheme path : Str} {u : UriImpl} :
    ofParts host scheme path = .ok u ↔ host ≠ [] ∧ splitPort host scheme path = .ok u ∧ u.isValid = true := by
  unfold ofParts
  split_ifs with hnil
  · simp [hnil]
  · rw [show ∀ (x : Except String UriImpl) f, x.bind f = x >>= f from fun _ _ => rfl, Fallible.bind_eq_ok]
    constructor
    · rintro ⟨v, hv, hu⟩
      split_ifs at hu with hvalid
      cases hu
      exact ⟨hnil, hv, hvalid⟩
    · rintro ⟨-, hu, hvalid⟩
      exact ⟨u, hu, if_pos hvalid⟩

theorem create_eq_ok {uri defaultScheme : Str} {u : UriImpl} (h : create uri defaultScheme = .ok u) :
    '/' ∉ (extractHostPathFromUri uri).1 ∧ u.path.head? = some '/' ∧
      ofParts (extractHostPathFromUri uri).1 u.scheme u.path = .ok u := by
  obtain ⟨scheme, rest, hparts⟩ : ∃ scheme rest,
      create uri defaultScheme = ofParts (rest.takeWhile (· ≠ '/')) scheme (pathOf rest) ∧
        (extractHostPathFromUri uri).1 = rest.takeWhile (· ≠ '/') := ⟨_, _, rfl, rfl⟩
  rw [hparts.1] at h
  rw [hparts.2]
  have hu : u.scheme = scheme ∧ u.path = pathOf rest := by
    rcases splitPort_eq_ok.mp (ofParts_eq_ok.mp h).2.1 with ⟨-, rfl⟩ | ⟨_, _, -, -, rfl⟩ <;> exact ⟨rfl, rfl⟩
  refine ⟨fun hmem => ?_, ?_, ?_⟩
  · simpa using List.mem_takeWhile_imp hmem
  · rw [hu.2]
    exact head?_pathOf rest
  · rw [hu.1, hu.2]
    exact h

theorem valid_scheme {u : UriImpl} (h : u.isValid = true) :
    ':' ∉ u.scheme ∧ Text.toLower u.scheme = u.scheme := by
  rcases (isValid_iff.mp h).1 with hscheme | hscheme | hscheme | hscheme <;> rw [hscheme] <;> decide

theorem create_text {u : UriImpl} (hvalid : u.isValid = true) {host : Str} (hhost : '/' ∉ host)
    (hpath : u.path.head? = some '/') (defaultScheme : Str) :
    create (u.scheme ++ "://".toList ++ host ++ u.path) defaultScheme = ofParts host u.scheme u.path := by
  obtain ⟨hcolon, hlower⟩ := valid_scheme hvalid
  obtain ⟨htake, hpathOf⟩ := takeWhile_append_path hhost hpath
  have htext : u.scheme ++ "://".toList ++ host ++ u.path = withScheme u.scheme (host ++ u.path) := by
    simp [withScheme]
  rw [htext, create_withScheme hcolon, htake, hpathOf, hlower]

theorem not_mem_decimal {c : Char} (hc : c.isDigit = false) (n : ℕ) : c ∉ Text.decimal n := by
  intro h
  rw [Text.isDigit_of_mem_decimal h] at hc
  cases hc

theorem parseUnsigned_decimal {n max : ℕ} (h : n ≤ max) :
    Text.parseUnsigned max (Text.decimal n) = some n := by
  rw [Text.parseUnsigned, Text.parseNumber_decimal]
  simp [h]

theorem ofParts_of_separator {host digits scheme path : Str} {u : UriImpl}
    (hsep : findPortSeparator (host ++ ':' :: digits) = some host.length) :
    ofParts (host ++ ':' :: digits) scheme path = .ok u ↔
      ∃ port, Text.parseUnsigned (2 ^ 64 - 1) digits = some port ∧
        u = ⟨host ++ ':' :: digits, host, path, port, scheme⟩ ∧ u.isValid = true := by
  have hdrop : (host ++ ':' :: digits).drop (host.length + 1) = digits := by
    rw [List.append_cons]
    exact List.drop_left' (by simp)
  rw [ofParts_eq_ok, splitPort_eq_ok, hsep]
  constructor
  · rintro ⟨-, ⟨hnone, -⟩ | ⟨colon, port, hcolon, hport, hu⟩, hvalid⟩
    · cases hnone
    · cases hcolon
      rw [hdrop] at hport
      rw [List.take_left' rfl] at hu
      exact ⟨port, hport, hu, hvalid⟩
  · rintro ⟨port, hport, hu, hvalid⟩
    refine ⟨by simp, .inr ⟨_, port, rfl, ?_, ?_⟩, hvalid⟩
    · rwa [hdrop]
    · rwa [List.take_left' rfl]

/-- The text of an accepted URI is read as that URI exactly when the host part closes the bracket that
it starts with. Without the closing bracket the port that was put there is taken for the host. -/
theorem reformat_stable_iff (uri defaultScheme : Str) (u : UriImpl) (h : create uri defaultScheme = .ok u)
    (defaultScheme' : Str) :
    create (u.scheme ++ "://".toList ++ u.hostAndPort ++ u.path) defaultScheme' = .ok u ↔
      Closed (extractHostPathFromUri uri).1 := by
  obtain ⟨hslash, hpath, hparts⟩ := create_eq_ok h
  generalize (extractHostPathFromUri uri).1 = host at hslash hparts ⊢
  obtain ⟨hne, hsplit, hvalid⟩ := ofParts_eq_ok.mp hparts
  rcases splitPort_eq_ok.mp hsplit with ⟨hnone, hu⟩ | ⟨colon, port, hcolon, -, hu⟩
  · have hhostAndPort : u.hostAndPort = host ++ ':' :: Text.decimal u.port := by rw [hu]
    have hslash' : '/' ∉ host ++ ':' :: Text.decimal u.port := by
      simp [hslash, not_mem_decimal]
    rw [hhostAndPort, create_text hvalid hslash' hpath]
    constructor
    · intro hparts'
      obtain ⟨-, hsplit', -⟩ := ofParts_eq_ok.mp hparts'
      by_contra hclosed
      have hnone' := findPortSeparator_of_not_closed (not_closed_append hclosed (not_mem_decimal rfl u.port))
      rcases splitPort_eq_ok.mp hsplit' with ⟨-, hu'⟩ | ⟨colon, _, hcolon, -⟩
      · -- The host would have grown by a port.
        have hlen := congrArg (fun u => u.hostWithoutPort.length) (hu.symm.trans hu')
        simp at hlen
      · rw [hnone'] at hcolon
        cases hcolon
    · intro hclosed
      have hsep := findPortSeparator_append hne hnone hclosed fun _ => not_mem_decimal rfl u.port
      refine (ofParts_of_separator hsep).mpr ⟨u.port, ?_, ?_, hvalid⟩
      · have hport : u.port ≤ 65535 := (isValid_iff.mp hvalid).2.1.2
        exact parseUnsigned_decimal (hport.trans (by omega))
      · rw [hu]
  · have hhost : u.hostAndPort = host := by rw [hu]
    have hclosed : Closed host := by
      by_contra hclosed
      rw [findPortSeparator_of_not_closed hclosed] at hcolon
      cases hcolon
    rw [hhost, create_text hvalid hslash hpath]
    exact iff_of_true hparts hclosed

theorem reformat_stable_ipv6 :
    ∃ u, create "HTTPS://[::1]/a".toList "http".toList = .ok u ∧ u.hostAndPort = "[::1]:443".toList ∧
      create (u.scheme ++ "://".toList ++ u.hostAndPort ++ u.path) "http".toList = .ok u := by
  refine ⟨_, rfl, rfl, (reformat_stable_iff "HTTPS://[::1]/a".toList "http".toList _ rfl _).mpr ?_⟩
  intro _
  decide

/-- The host without a closing bracket gets another port each time. -/
theorem unclosed_bracket_grows :
    ∃ u v, create "http://[a".toList "http".toList = .ok u ∧
      create (u.scheme ++ "://".toList ++ u.hostAndPort ++ u.path) "http".toList = .ok v ∧
      u.hostAndPort = "[a:80".toList ∧ v.hostAndPort = "[a:80:80".toList ∧
        u.hostWithoutPort ≠ v.hostWithoutPort :=
  ⟨_, _, rfl, rfl, rfl, rfl, by decide⟩

end UriImpl

end Nighthawk.Uri
