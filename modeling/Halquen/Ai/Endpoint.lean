import Halquen.Ai.Provider

/-!
# Endpoints of providers

The endpoint of a provider is its base URL with a fixed suffix. A base URL with credentials, a query
or a fragment is refused, and so is plain HTTP unless a local provider is reached on a loopback
host. The hosts are compared as text, and the library gives an IPv6 address in brackets, so the
address `::1` is never recognised: for a local provider on it the endpoint is refused, and that is
the only difference from what is permitted (`endpoint_policy_iff`).

Of the URL library the results use what it documents of hosts, of setting a path and of joining a
relative reference (`Documented`).
-/

set_option autoImplicit false

namespace Halquen.Ai.Endpoint

open Halquen.Domain.Gateway Halquen.Library.Listing Halquen.Ai.Provider

/-! ## What the library documents -/

/-- URLs that come from the library. -/
inductive Produced (urls : UrlLibrary) : Url → Prop where
  | parse (text : String) (url : Url) (h : urls.parse text = some url) : Produced urls url
  | setPath (url : Url) (path : String) (h : Produced urls url) :
      Produced urls (urls.setPath url path)

/-- The schemes of the web. -/
def Web (url : Url) : Prop := url.scheme = "https" ∨ url.scheme = "http"

/-- A path that ends with a slash. -/
def slashed (path : String) : Bool := path.toList.getLast? == some '/'

/-- One slash is appended if it is missing. -/
def withSlash (path : String) : String := if slashed path then path else path ++ "/"

/-- The path up to its last slash. -/
def directory (path : String) : String :=
  .ofList (path.toList.reverse.dropWhile (· != '/')).reverse

/-- A reference of plain segments: no scheme, no host, no dots and nothing to be escaped. -/
def relativePath (reference : String) : Bool :=
  reference.toList.head?.any (· != '/')
    && reference.toList.all fun c => c.isAlphanum || c == '-' || c == '_' || c == '/'

/-- Documented behaviour of the library. -/
structure Documented (urls : UrlLibrary) : Prop where
  /-- An IPv6 address is given in brackets, and no other host has a colon. -/
  bracketed : ∀ url host, Produced urls url → url.hostStr = some host → ':' ∈ host.toList →
    host.toList.head? = some '['
  /-- The path of a parsed URL is in its normal form: with a slash behind it, it is set as it is,
  and nothing else changes. -/
  setPath_slash : ∀ url, Produced urls url → Web url →
    urls.setPath url (url.path ++ "/") = { url with path := url.path ++ "/" }
  /-- A relative reference takes the place of what follows the last slash of the path. -/
  join_relative : ∀ url reference, Produced urls url → Web url → relativePath reference = true →
    urls.join url reference = some { url with
      path := directory url.path ++ reference, query := none, fragment := none }

/-! ## What is permitted -/

/-- Neither credentials nor a query nor a fragment. -/
structure Plain (base : Url) : Prop where
  username : base.username = ""
  password : base.password = none
  query : base.query = none
  fragment : base.fragment = none

/-- The loopback hosts, as the library gives them. -/
def LoopbackHost (base : Url) : Prop :=
  base.hostStr = some "localhost" ∨ base.hostStr = some "127.0.0.1" ∨ base.hostStr = some "[::1]"

/-- HTTPS, or plain HTTP for a local provider on a loopback host. -/
def Permitted (privacy : PrivacyClass) (base : Url) : Prop :=
  Plain base ∧ (base.scheme = "https" ∨
    base.scheme = "http" ∧ privacy = .local ∧ LoopbackHost base)

/-- The URL leads to the suffix below the base. -/
structure Leads (base : Url) (suffix : String) (url : Url) : Prop where
  scheme : url.scheme = base.scheme
  host : url.hostStr = base.hostStr
  port : url.port = base.port
  path : url.path = withSlash base.path ++ suffix

/-- What the adapters append. -/
def suffixes : List String := ["models", "chat/completions"]

/-- The endpoint is there exactly for a permitted base, and leads below it. -/
def Follows (urls : UrlLibrary) (provider : Domain.Gateway.Provider) (base : Url)
    (suffix : String) : Prop :=
  ((∃ url, endpoint urls provider suffix = .ok url) ↔ Permitted provider.privacy base) ∧
    ∀ url, endpoint urls provider suffix = .ok url → Leads base suffix url

/-- A local provider on the IPv6 loopback. -/
def OnIpv6Loopback (privacy : PrivacyClass) (base : Url) : Prop :=
  Plain base ∧ base.scheme = "http" ∧ privacy = .local ∧ base.hostStr = some "[::1]"

/-! ## The endpoint -/

theorem slashed_append (path : String) : slashed (path ++ "/") = true := by
  unfold slashed
  rw [String.toList_append, List.getLast?_append]
  rfl

/-- The whole of a path that ends with a slash is its directory. -/
theorem directory_of_slashed {path : String} (h : slashed path = true) : directory path = path := by
  rw [slashed, beq_iff_eq, List.getLast?_eq_head?_reverse] at h
  have hall : path.toList.reverse.dropWhile (· != '/') = path.toList.reverse := by
    cases hletters : path.toList.reverse with
    | nil => rfl
    | cons c cs =>
        rw [hletters, List.head?_cons, Option.some.injEq] at h
        rw [List.dropWhile_cons_of_neg (by simp [h])]
  rw [directory, hall, List.reverse_reverse, String.ofList_toList]

section

variable {urls : UrlLibrary} {provider : Domain.Gateway.Provider} {base : Url} {suffix : String}

theorem relativePath_of_mem (h : suffix ∈ suffixes) : relativePath suffix = true := by
  have hall : suffixes.all relativePath = true := by decide
  exact List.all_eq_true.mp hall suffix h

theorem plain_iff :
    (base.username != "" || base.password.isSome || base.query.isSome || base.fragment.isSome) =
      false ↔ Plain base := by
  simp only [Bool.or_eq_false_iff, bne_eq_false_iff_eq, Option.isSome_eq_false_iff,
    Option.isNone_iff_eq_none]
  constructor
  · rintro ⟨⟨⟨husername, hpassword⟩, hquery⟩, hfragment⟩
    exact ⟨husername, hpassword, hquery, hfragment⟩
  · intro h
    exact ⟨⟨⟨h.username, h.password⟩, h.query⟩, h.fragment⟩

/-- The host `::1` does not occur without its brackets. -/
theorem isLoopback_iff (hurls : Documented urls) (hbase : Produced urls base) :
    isLoopback base = true ↔
      base.hostStr = some "localhost" ∨ base.hostStr = some "127.0.0.1" := by
  rw [isLoopback, Bool.or_eq_true, Bool.or_eq_true, beq_iff_eq, beq_iff_eq, beq_iff_eq]
  refine or_iff_left fun hbare => ?_
  have hbracket := hurls.bracketed base "::1" hbase hbare (by decide)
  exact absurd hbracket (by decide)

/-- The library appends the suffix to the path. -/
theorem join_withSlash (hurls : Documented urls) (hbase : Produced urls base) (hweb : Web base)
    (hsuffix : suffix ∈ suffixes) :
    urls.join (if base.path.toList.getLast? == some '/' then base
        else urls.setPath base (base.path ++ "/")) suffix =
      some { base with
        path := withSlash base.path ++ suffix, query := none, fragment := none } := by
  have hrelative := relativePath_of_mem hsuffix
  rw [← slashed]
  by_cases hslash : slashed base.path = true
  · have hsame : withSlash base.path = base.path := if_pos hslash
    rw [if_pos hslash, hurls.join_relative base suffix hbase hweb hrelative,
      directory_of_slashed hslash, hsame]
  · have hset := hurls.setPath_slash base hbase hweb
    have happended : withSlash base.path = base.path ++ "/" := if_neg hslash
    have hproduced := Produced.setPath base (base.path ++ "/") hbase
    rw [hset] at hproduced
    rw [if_neg hslash, hset, hurls.join_relative _ suffix hproduced hweb hrelative,
      directory_of_slashed (slashed_append base.path), happended]

/-- The endpoint is there for what the code accepts, and is the base with the suffix. -/
theorem endpoint_eq_ok_iff (hurls : Documented urls)
    (hparse : urls.parse provider.baseUrl = some base) (hsuffix : suffix ∈ suffixes) (url : Url) :
    endpoint urls provider suffix = .ok url ↔
      Plain base ∧
        (base.scheme = "https" ∨ base.scheme = "http" ∧ provider.privacy = .local ∧
          (base.hostStr = some "localhost" ∨ base.hostStr = some "127.0.0.1")) ∧
        url = { base with
          path := withSlash base.path ++ suffix, query := none, fragment := none } := by
  have hbase : Produced urls base := .parse _ base hparse
  have hscheme : (!(base.scheme == "https" || (base.scheme == "http" &&
      provider.privacy == .local && isLoopback base))) = false ↔
        base.scheme = "https" ∨ base.scheme = "http" ∧ provider.privacy = .local ∧
          (base.hostStr = some "localhost" ∨ base.hostStr = some "127.0.0.1") := by
    rw [Bool.not_eq_false', Bool.or_eq_true, Bool.and_eq_true, Bool.and_eq_true, beq_iff_eq,
      beq_iff_eq, beq_iff_eq, isLoopback_iff hurls hbase, and_assoc]
  unfold endpoint
  simp only [except_bind_eq_ok_iff, orError_eq_ok_iff, rejectIf_eq_ok_iff, hparse,
    Option.some.injEq, plain_iff, hscheme, exists_eq_left', exists_const]
  refine and_congr_right fun _ => and_congr_right fun haccepted => ?_
  have hweb : Web base := haccepted.imp id And.left
  rw [join_withSlash hurls hbase hweb hsuffix, Option.some.injEq, eq_comm]

/-- For every provider and every base URL that parses, and each suffix of the adapters: the endpoint
is there exactly for the permitted bases and leads below the base, except on the IPv6 loopback. -/
theorem endpoint_policy_iff (hurls : Documented urls)
    (hparse : urls.parse provider.baseUrl = some base) (hsuffix : suffix ∈ suffixes) :
    Follows urls provider base suffix ↔ ¬ OnIpv6Loopback provider.privacy base := by
  have hendpoint := endpoint_eq_ok_iff hurls hparse hsuffix
  have hleads : ∀ url, endpoint urls provider suffix = .ok url → Leads base suffix url := by
    intro url hurl
    obtain ⟨-, -, rfl⟩ := (hendpoint url).mp hurl
    exact ⟨rfl, rfl, rfl, rfl⟩
  rw [Follows, and_iff_left hleads]
  constructor
  -- The policy admits the bracketed address; the three hosts of the code do not contain it.
  · rintro hexact ⟨hplain, hhttp, hlocal, hhost⟩
    obtain ⟨url, hurl⟩ := hexact.mpr ⟨hplain, .inr ⟨hhttp, hlocal, .inr (.inr hhost)⟩⟩
    obtain ⟨-, hscheme, -⟩ := (hendpoint url).mp hurl
    rw [hhttp, hhost] at hscheme
    rcases hscheme with hhttps | ⟨-, -, hname | haddress⟩
    · exact absurd hhttps (by decide)
    · exact absurd hname (by decide)
    · exact absurd haddress (by decide)
  · intro hother
    constructor
    -- What the code accepts, the policy accepts.
    · rintro ⟨url, hurl⟩
      obtain ⟨hplain, hscheme, -⟩ := (hendpoint url).mp hurl
      refine ⟨hplain, hscheme.imp id ?_⟩
      rintro ⟨hhttp, hlocal, hhost⟩
      exact ⟨hhttp, hlocal, hhost.imp id .inl⟩
    -- What the policy accepts is that address, or the code accepts it.
    · rintro ⟨hplain, hscheme⟩
      refine ⟨_, (hendpoint _).mpr ⟨hplain, hscheme.imp id ?_, rfl⟩⟩
      rintro ⟨hhttp, hlocal, hname | haddress | hipv6⟩
      · exact ⟨hhttp, hlocal, .inl hname⟩
      · exact ⟨hhttp, hlocal, .inr haddress⟩
      · exact absurd ⟨hplain, hhttp, hlocal, hipv6⟩ hother

end

/-! ## Two base URLs -/

/-- A library that knows two base URLs. -/
def twoUrls : UrlLibrary where
  parse text :=
    if text = "https://api.example.invalid/v1" then
      some ⟨"https", "", none, some "api.example.invalid", none, "/v1", none, none⟩
    else if text = "http://[::1]:11434/v1" then
      some ⟨"http", "", none, some "[::1]", some 11434, "/v1", none, none⟩
    else
      none
  setPath url path := { url with path := path }
  join url reference := some { url with
    path := directory url.path ++ reference, query := none, fragment := none }

theorem documented_twoUrls : Documented twoUrls where
  bracketed := by
    intro url host hurl hhost hcolon
    have hhosts : url.hostStr = some "api.example.invalid" ∨ url.hostStr = some "[::1]" := by
      induction hurl with
      | parse text url h =>
          simp only [twoUrls] at h
          split at h
          · cases h
            exact .inl rfl
          · split at h
            · cases h
              exact .inr rfl
            · cases h
      | setPath url path _ ih => exact ih hhost
    rw [hhost, Option.some.injEq, Option.some.injEq] at hhosts
    rcases hhosts with rfl | rfl
    · exact absurd hcolon (by decide)
    · decide
  setPath_slash _ _ _ := rfl
  join_relative _ _ _ _ _ := rfl

/-- A provider with a given base URL. -/
def providerAt (privacy : PrivacyClass) (baseUrl : String) : Domain.Gateway.Provider where
  id := ⟨"provider_endpoint", by decide⟩
  kind := .openAiCompatible
  name := "endpoint"
  baseUrl := baseUrl
  enabled := true
  privacy := privacy
  configured := true
  credentialId := none
  status := .configured
  createdAtMs := 1
  updatedAtMs := 1

theorem endpoint_policy_cloud :
    Follows twoUrls (providerAt .cloud "https://api.example.invalid/v1")
      ⟨"https", "", none, some "api.example.invalid", none, "/v1", none, none⟩ "models" :=
  (endpoint_policy_iff documented_twoUrls rfl (by decide)).mpr fun h =>
    absurd h.2.1 (by decide)

/-- A local provider on the IPv6 loopback has no endpoint. -/
theorem ipv6_loopback_refused :
    ¬ ∀ (urls : UrlLibrary) (provider : Domain.Gateway.Provider) (base : Url) (suffix : String),
      Documented urls → urls.parse provider.baseUrl = some base → suffix ∈ suffixes →
      Follows urls provider base suffix := by
  intro h
  obtain ⟨hexact, -⟩ := h twoUrls (providerAt .local "http://[::1]:11434/v1")
    ⟨"http", "", none, some "[::1]", some 11434, "/v1", none, none⟩ "models" documented_twoUrls
    (by decide) (by decide)
  have hpermitted : Permitted .local
      ⟨"http", "", none, some "[::1]", some 11434, "/v1", none, none⟩ :=
    ⟨⟨rfl, rfl, rfl, rfl⟩, .inr ⟨rfl, rfl, .inr (.inr rfl)⟩⟩
  obtain ⟨url, hurl⟩ := hexact.mpr hpermitted
  have hrefused : endpoint twoUrls (providerAt .local "http://[::1]:11434/v1") "models" =
      .error .invalidEndpoint := by
    decide
  rw [hrefused] at hurl
  cases hurl

end Halquen.Ai.Endpoint
