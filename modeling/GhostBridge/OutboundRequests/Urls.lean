import GhostBridge.Ecma.IpAddresses
import GhostBridge.Ecma.Outcome
import GhostBridge.Ecma.Text

/-!
# Blocked addresses and hosts

The addresses and the names of hosts to which no request goes out.
-/

namespace GhostBridge.OutboundRequests

open Ecma

def blockedAddresses : List Subnet :=
  [("0.0.0.0", 8), ("10.0.0.0", 8), ("100.64.0.0", 10), ("127.0.0.0", 8), ("169.254.0.0", 16),
    ("172.16.0.0", 12), ("192.0.0.0", 24), ("192.0.2.0", 24), ("192.88.99.0", 24),
    ("192.168.0.0", 16), ("198.18.0.0", 15), ("198.51.100.0", 24), ("203.0.113.0", 24),
    ("224.0.0.0", 4), ("240.0.0.0", 4)].map (fun network => ⟨ascii network.1, network.2, .ipv4⟩) ++
  [("::", 128), ("::1", 128), ("100::", 64), ("2001:2::", 48), ("2001:10::", 28),
    ("2001:db8::", 32), ("fc00::", 7), ("fe80::", 10), ("ff00::", 8)].map
      fun network => ⟨ascii network.1, network.2, .ipv6⟩

/-- `.replace(/^\[/, '')`. -/
def withoutOpeningBracket : Text → Text
  | 0x5b :: rest => rest
  | text => text

/-- `.replace(/\]$/, '')`. -/
def withoutClosingBracket (text : Text) : Text :=
  if text.getLast? = some 0x5d then text.dropLast else text

def normalizeHostname (hostname : Text) : Text :=
  withoutClosingBracket (withoutOpeningBracket hostname.trimmed.toLowerCase)

def isBlockedIpv4 (address : Text) : Bool :=
  (ipv4Value address).isNone || checkBlockList blockedAddresses address .ipv4

/-- `/^(?:::ffff:|(?:0:){5}ffff:)(.+)$/`. -/
def mappedPart (address : Text) : Option Text :=
  let rest (start : String) := if (ascii start).isPrefixOf address then
    some (address.drop (ascii start).length) else none
  ((rest "::ffff:").or (rest "0:0:0:0:0:ffff:")).filter (· ≠ [])

def ipv4MappedAddress (address : Text) : Option Text := do
  let part ← mappedPart address
  if isIP part = some .ipv4 then some part
  else
    match (part.splitOn 0x3a).mapM ipv6Word with
    | some [high, low] =>
      some ((ascii ".").intercalate
        [decimalDigits (high / 256), decimalDigits (high % 256), decimalDigits (low / 256),
          decimalDigits (low % 256)])
    | _ => none

def isBlockedIpv6 (address : Text) : Bool :=
  let host := normalizeHostname address
  match ipv4MappedAddress host with
  | some mapped => isBlockedIpv4 mapped
  | none => checkBlockList blockedAddresses host .ipv6

def isBlockedIp (address : Text) : Bool :=
  match isIP (normalizeHostname address) with
  | some .ipv4 => isBlockedIpv4 (normalizeHostname address)
  | some .ipv6 => isBlockedIpv6 (normalizeHostname address)
  | none => false

example : isBlockedIp (ascii "[::FFFF:7f00:1]") = true := by decide

example : isBlockedIp (ascii "93.184.215.14") = false := by decide +kernel

def isBlockedHostname (hostname : Text) : Bool :=
  let host := normalizeHostname hostname
  host.isEmpty || host == ascii "localhost" || host == ascii "localhost.localdomain" ||
    (ascii ".localhost").isSuffixOf host || (ascii ".local").isSuffixOf host ||
    (ascii ".internal").isSuffixOf host || host == ascii "metadata.google.internal" ||
    host == ascii "169.254.169.254" || (!host.contains 0x2e && (isIP host).isNone)

theorem forall_lt_of_decide {P : UInt16 → Prop} {bound : ℕ}
    (h : ∀ n < bound, P (UInt16.ofNat n)) {u : UInt16} (hu : u.toNat < bound) : P u := by
  have hvalue := h u.toNat hu
  rwa [UInt16.ofNat_toNat] at hvalue

theorem lowerUnit_smallLetter : ∀ n < 123, 97 ≤ n →
    lowerUnit (UInt16.ofNat n) = [UInt16.ofNat n] := by decide

theorem lowerUnit_of_mem {u v : UInt16} (h : v ∈ lowerUnit u) : lowerUnit v = [v] := by
  by_cases hcapital : (0x41 ≤ u && u ≤ 0x5a) = true
  · unfold lowerUnit at h
    rw [if_pos hcapital] at h
    obtain rfl := List.mem_singleton.mp h
    simp only [Bool.and_eq_true, decide_eq_true_eq, UInt16.le_iff_toNat_le] at hcapital
    have hlow : 65 ≤ u.toNat := hcapital.1
    have hhigh : u.toNat ≤ 90 := hcapital.2
    have hvalue : (u + 0x20).toNat = u.toNat + 32 := by
      rw [UInt16.toNat_add]
      exact Nat.mod_eq_of_lt (by omega : u.toNat + 32 < 2 ^ 16)
    have hletter := lowerUnit_smallLetter (u + 0x20).toNat (by omega) (by omega)
    rwa [UInt16.ofNat_toNat] at hletter
  · have hsame : lowerUnit u = [0x69, 0x307] ∨ lowerUnit u = ascii "k" ∨ lowerUnit u = [u] := by
      unfold lowerUnit
      rw [if_neg hcapital]
      split
      · exact .inl rfl
      · exact .inr (.inl rfl)
      · exact .inr (.inr rfl)
    rcases hsame with hsame | hsame | hsame
    · rw [hsame] at h
      rcases List.mem_cons.mp h with rfl | h
      · decide
      · obtain rfl := List.mem_singleton.mp h
        decide
    · rw [hsame] at h
      obtain rfl := List.mem_singleton.mp h
      decide
    · rw [hsame] at h
      obtain rfl := List.mem_singleton.mp h
      exact hsame

theorem toLowerCase_of_forall_mem {text : Text} (h : ∀ u ∈ text, ∃ w, u ∈ lowerUnit w) :
    text.toLowerCase = text := by
  have hfixed : ∀ u ∈ text, lowerUnit u = [u] := by
    intro u hu
    obtain ⟨w, hw⟩ := h u hu
    exact lowerUnit_of_mem hw
  rw [Text.toLowerCase, List.flatMap_congr hfixed]
  exact List.flatMap_singleton' text

theorem exists_of_mem_toLowerCase {text : Text} {u : UInt16} (h : u ∈ text.toLowerCase) :
    ∃ w, u ∈ lowerUnit w := by
  obtain ⟨w, -, hw⟩ := List.mem_flatMap.mp h
  exact ⟨w, hw⟩

theorem mem_withoutOpeningBracket {text : Text} {u : UInt16}
    (h : u ∈ withoutOpeningBracket text) : u ∈ text := by
  unfold withoutOpeningBracket at h
  split at h
  · exact List.mem_cons_of_mem _ h
  · exact h

theorem mem_withoutClosingBracket {text : Text} {u : UInt16}
    (h : u ∈ withoutClosingBracket text) : u ∈ text := by
  unfold withoutClosingBracket at h
  split at h
  · exact List.dropLast_subset _ h
  · exact h

theorem not_whitespace_of_isAddressUnit {u : UInt16} (h : isAddressUnit u = true) :
    isWhitespace u = false := by
  have hbound : u.toNat < 128 := by
    simp only [isAddressUnit, isDigit, Bool.or_eq_true, Bool.and_eq_true, decide_eq_true_eq,
      UInt16.le_iff_toNat_le] at h
    rcases h with ((hdigit | hsmall) | hcapital) | hother
    · exact Nat.lt_of_le_of_lt hdigit.2 (by decide)
    · exact Nat.lt_of_le_of_lt hsmall.2 (by decide)
    · exact Nat.lt_of_le_of_lt hcapital.2 (by decide)
    · have hmarks : ((ascii ":.%-").all fun mark => decide (mark.toNat < 128)) = true := by decide
      simpa using List.all_eq_true.mp hmarks u (List.contains_iff_mem.mp hother)
  exact forall_lt_of_decide (P := fun u => isAddressUnit u = true → isWhitespace u = false)
    (by decide) hbound h

theorem normalizeHostname_of_isIP {hostname : Text} (h : isIP (normalizeHostname hostname) ≠ none) :
    normalizeHostname (normalizeHostname hostname) = normalizeHostname hostname := by
  have hunits := isIP_units h
  have hlower : (normalizeHostname hostname).toLowerCase = normalizeHostname hostname :=
    toLowerCase_of_forall_mem fun u hu =>
      exists_of_mem_toLowerCase (mem_withoutOpeningBracket (mem_withoutClosingBracket hu))
  have htrimmed : (normalizeHostname hostname).trimmed = normalizeHostname hostname :=
    Text.trimmed_of_forall fun u hu => not_whitespace_of_isAddressUnit (hunits u hu)
  have hopening : withoutOpeningBracket (normalizeHostname hostname) =
      normalizeHostname hostname := by
    unfold withoutOpeningBracket
    split
    next rest heq =>
      have hbracket := hunits 0x5b (by rw [heq]; exact List.mem_cons_self)
      exact absurd hbracket (by decide)
    · rfl
  have hclosing : withoutClosingBracket (normalizeHostname hostname) =
      normalizeHostname hostname := by
    unfold withoutClosingBracket
    split
    next hlast =>
      have hbracket := hunits 0x5d (List.mem_of_getLast? hlast)
      exact absurd hbracket (by decide)
    · rfl
  calc normalizeHostname (normalizeHostname hostname)
      = withoutClosingBracket (withoutOpeningBracket
          (normalizeHostname hostname).trimmed.toLowerCase) := rfl
    _ = normalizeHostname hostname := by rw [htrimmed, hlower, hopening, hclosing]

end GhostBridge.OutboundRequests

/-!
## Safe URLs

The URLs to which a request may go, and the address to which its host is pinned.
-/

namespace GhostBridge.OutboundRequests

open Ecma

structure Url where
  href : Text
  origin : Text
  protocol : Text
  username : Text
  password : Text
  hostname : Text
  port : Text
  pathname : Text
  search : Text
  hash : Text
deriving DecidableEq

structure UrlParser where
  /-- `new URL(text)`; none when it throws. -/
  parse : Text → Option Url
  /-- `new URL(text, base).toString()`; none when it throws. -/
  resolve : Text → Url → Option Text

/-- The fields of `env` that are read. -/
structure Env where
  nodeEnv : Text
  /-- `String(env.PORT)`. -/
  port : Text
  allowPrivateRuntimeUrlsInDev : Bool
  externalTestAgentBaseUrl : Option Text

/-- An `AppError` with one detail. -/
structure AppError where
  statusCode : ℕ
  code : String
  message : String
  path : String
  detail : String
deriving DecidableEq

def unsafeUrl (message path detail : String) : AppError :=
  ⟨400, "UNSAFE_URL", message, path, detail⟩

def safeFetchFailed (message path detail : String) : AppError :=
  ⟨502, "SAFE_FETCH_FAILED", message, path, detail⟩

def blockedAddressError : AppError :=
  unsafeUrl "URL host resolved to a blocked IP address." "hostname"
    "Resolved IP is local, private, metadata, link-local, or multicast."

/-- The options that `parseSafeUrl` reads. -/
structure UrlOptions where
  allowDevelopmentDemo : Bool := false
  allowDevelopmentExternalAgent : Bool := false
  noQuery : Bool := false

def developmentDemoRuntimePath : Text := ascii "/api/v1/demo/mock-agent/run"
def externalAgentRuntimePath : Text := ascii "/v1/research/invoke"
def externalAgentHealthPath : Text := ascii "/health"

section Exceptions

variable (parser : UrlParser) (env : Env) (options : UrlOptions) (parsed : Url)

/-- `.trim().replace(/\/+$/, '')`. -/
def externalTestAgentBaseUrl : Text :=
  (((env.externalTestAgentBaseUrl.getD []).trimmed.reverse).dropWhile (· == 0x2f)).reverse

def externalTestAgentUrl (pathname : Text) : Text := externalTestAgentBaseUrl env ++ pathname

def isDevelopmentExternalAgentUrl : Bool :=
  env.nodeEnv == ascii "development" && env.allowPrivateRuntimeUrlsInDev &&
    parsed.username.isEmpty && parsed.password.isEmpty && parsed.search.isEmpty &&
    parsed.hash.isEmpty &&
    [externalAgentRuntimePath, externalAgentHealthPath].any fun pathname =>
      (parser.parse (externalTestAgentUrl env pathname)).any (parsed.href == ·.href)

def isDevelopmentDemoRuntimeUrl : Bool :=
  env.nodeEnv == ascii "development" && parsed.protocol == ascii "http:" &&
    normalizeHostname parsed.hostname == ascii "127.0.0.1" && parsed.port == env.port &&
    parsed.pathname == developmentDemoRuntimePath && parsed.username.isEmpty &&
    parsed.password.isEmpty && parsed.search.isEmpty && parsed.hash.isEmpty

def allowedPrivate : Bool :=
  options.allowDevelopmentDemo && isDevelopmentDemoRuntimeUrl env parsed ||
    options.allowDevelopmentExternalAgent && isDevelopmentExternalAgentUrl parser env parsed

def parseSafeUrl (rawUrl : Text) : Except AppError Url := do
  let parsed ← orThrow (unsafeUrl "URL is invalid." "url" "URL must be valid.")
    (parser.parse rawUrl)
  throwWhen (!([ascii "http:", ascii "https:"].contains parsed.protocol))
    (unsafeUrl "URL protocol is not allowed." "url" "Only HTTP and HTTPS URLs are allowed.")
  throwWhen (env.nodeEnv == ascii "production" && parsed.protocol != ascii "https:")
    (unsafeUrl "HTTPS is required for outbound requests in production." "url"
      "Production safeFetch requests must use HTTPS.")
  throwWhen (!parsed.username.isEmpty || !parsed.password.isEmpty)
    (unsafeUrl "URL must not contain credentials." "url"
      "Embedded URL credentials are not allowed.")
  throwWhen (!allowedPrivate parser env options parsed &&
      (isBlockedHostname parsed.hostname || isBlockedIp parsed.hostname))
    (unsafeUrl "URL host is not allowed." "hostname"
      "Local, private, metadata, multicast, and internal hosts are blocked.")
  throwWhen (options.noQuery && !parsed.search.isEmpty)
    (unsafeUrl "URL must not include query parameters." "url"
      "Query parameters are not allowed for this request.")
  pure parsed

structure HostAddress where
  address : Text
  family : IpFamily
deriving DecidableEq

/-- What `dns.lookup` answers, with `none` when it fails. -/
abbrev Lookup := Option (List HostAddress)

def assertResolvedHostIsSafe (lookup : Lookup) : Except AppError HostAddress :=
  match isIP (normalizeHostname parsed.hostname) with
  | some family => do
    throwWhen (!allowedPrivate parser env options parsed && isBlockedIp parsed.hostname)
      blockedAddressError
    pure ⟨normalizeHostname parsed.hostname, family⟩
  | none =>
    match lookup with
    | none =>
      throw (safeFetchFailed "Outbound host could not be resolved." "hostname"
        "DNS resolution failed.")
    | some [] => throw blockedAddressError
    | some (first :: records) => do
      throwWhen (!allowedPrivate parser env options parsed &&
        (first :: records).any fun record => isBlockedIp record.address) blockedAddressError
      pure first

end Exceptions

variable {parser : UrlParser} {env : Env} {options : UrlOptions} {parsed : Url}

theorem parseSafeUrl_ok {rawUrl : Text} (h : parseSafeUrl parser env options rawUrl = .ok parsed) :
    parser.parse rawUrl = some parsed := by
  simp only [parseSafeUrl, bind_ok, orThrow_ok, throwWhen_ok, exists_unit, pure_ok] at h
  obtain ⟨url, hparse, -, -, -, -, -, rfl⟩ := h
  exact hparse

theorem assertResolvedHostIsSafe_ok {lookup : Lookup} {pinned : HostAddress}
    (h : assertResolvedHostIsSafe parser env options parsed lookup = .ok pinned) :
    allowedPrivate parser env options parsed = true ∨ isBlockedIp pinned.address = false := by
  unfold assertResolvedHostIsSafe at h
  split at h
  next family hfamily =>
    simp only [bind_ok, throwWhen_ok, exists_unit, pure_ok, Bool.and_eq_false_iff] at h
    obtain ⟨hallowed | hblocked, rfl⟩ := h
    · exact .inl (by simpa using hallowed)
    · right
      have hfamily' : isIP (normalizeHostname parsed.hostname) ≠ none := by simp [hfamily]
      have hnormal := normalizeHostname_of_isIP hfamily'
      have hsame : isBlockedIp (normalizeHostname parsed.hostname) = isBlockedIp parsed.hostname := by
        unfold isBlockedIp
        rw [hnormal]
      rw [hsame]
      exact hblocked
  · split at h
    · cases h
    · cases h
    next first records =>
      simp only [bind_ok, throwWhen_ok, exists_unit, pure_ok, Bool.and_eq_false_iff] at h
      obtain ⟨hallowed | hblocked, rfl⟩ := h
      · exact .inl (by simpa using hallowed)
      · right
        have hfirst := List.any_eq_false.mp hblocked first List.mem_cons_self
        simpa using hfirst

end GhostBridge.OutboundRequests
