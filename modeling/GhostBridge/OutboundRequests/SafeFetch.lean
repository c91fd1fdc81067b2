import GhostBridge.OutboundRequests.Urls

/-!
# Safe fetches

A fetch follows redirections by itself, and looks at each target before a request goes there.
-/

namespace GhostBridge.OutboundRequests

open Ecma

abbrev HeaderEntries := List (Text × Text)

def isTokenUnit (u : UInt16) : Bool :=
  isDigit u || 0x61 ≤ u && u ≤ 0x7a || 0x41 ≤ u && u ≤ 0x5a ||
    (ascii "!#$%&'*+-.^_`|~").contains u

def normalizeHeaderValue (value : Text) : Text :=
  let strip (text : Text) := text.dropWhile [0x09, 0x0a, 0x0d, 0x20].contains
  (strip (strip value).reverse).reverse

def isHeader (header : Text × Text) : Bool :=
  !header.1.isEmpty && header.1.all isTokenUnit &&
    (normalizeHeaderValue header.2).all fun u => u ≤ 0xff && !([0x00, 0x0a, 0x0d].contains u)

/-- `new Headers(headers).entries()`; none when it throws. -/
def newHeaders (headers : HeaderEntries) : Option HeaderEntries :=
  if headers.all isHeader then
    let normalized := headers.map fun header =>
      (header.1.toLowerCase, normalizeHeaderValue header.2)
    some ((((normalized.map Prod.fst).eraseDups).mergeSort Text.le).map fun name =>
      (name, (ascii ", ").intercalate ((normalized.filter (·.1 == name)).map Prod.snd)))
  else none

def isSensitiveOutboundHeader (name : Text) : Bool :=
  [ascii "authorization", ascii "proxy-authorization", ascii "cookie", ascii "x-api-key"].contains
    name.toLowerCase

def crossOriginHeaders : List Text := [ascii "accept", ascii "content-type"]

def stripSensitiveHeadersForCrossOriginRedirect (headers : HeaderEntries) : Option HeaderEntries :=
  (newHeaders headers).map fun normalized =>
    normalized.filter fun header =>
      !isSensitiveOutboundHeader header.1 && crossOriginHeaders.contains header.1.toLowerCase

structure FetchOptions extends UrlOptions where
  method : Option Text := none
  headers : HeaderEntries := []
  body : Option Text := none
  maxRedirects : Option Number := none

/-- `redirectCount <= maxRedirects`. -/
def countLe (count : ℕ) : Number → Bool
  | .nan => false
  | .infinity negative => !negative
  | .finite limit => decide ((count * unitsPerOne : ℤ) ≤ limit.signedUnits)

/-- `redirectCount >= maxRedirects`. -/
def countGe (count : ℕ) : Number → Bool
  | .nan => false
  | .infinity negative => negative
  | .finite limit => decide (limit.signedUnits ≤ (count * unitsPerOne : ℤ))

/-- `Number(options.maxRedirects ?? DEFAULT_MAX_REDIRECTS)`. -/
def FetchOptions.redirectLimit (options : FetchOptions) : Number :=
  options.maxRedirects.getD (.ofNat 3)

structure Request where
  url : Url
  method : Text
  headers : HeaderEntries
  body : Option Text
  pinned : HostAddress
deriving DecidableEq

structure Response where
  status : ℕ
  /-- `response.headers.get('location')`. -/
  location : Option Text := none
  cancellation : Except AppError Unit := .ok ()
  /-- What `readLimitedBody` returns. -/
  bodyText : Except AppError Text := .ok []

/-- What the platform answers in one round of the loop. What the signal aborts fails with the reason
of the signal. -/
structure Hop where
  begins : Except AppError Unit := .ok ()
  lookup : Except AppError Lookup
  /-- The race of `options.beforeTransmit()` with the signal. -/
  beforeTransmit : Except AppError Unit := .ok ()
  transmits : Except AppError Unit := .ok ()
  response : Except AppError Response

structure FetchState where
  nextUrl : Text
  requestHeaders : HeaderEntries
  method : Option Text
  body : Option Text
  redirectCount : ℕ := 0
  visited : List Text := []
  transmissionStarted : Bool := false

/-- A request that was made, with the status of its response. -/
structure Exchange where
  request : Request
  status : Option ℕ
deriving DecidableEq

inductive Ending where
  | failed (error : AppError)
  | returned (status : ℕ) (url bodyText : Text)

/-- A fetch: its requests, and how it ends unless it still waits. -/
structure Fetch where
  sent : List Exchange := []
  ending : Option Ending := none

def Fetch.fails (error : AppError) : Fetch := { ending := some (.failed error) }

def remoteRequestFailed : AppError :=
  safeFetchFailed "Outbound request failed." "request"
    "The remote request failed before a safe response was available."

/-- `options.method || 'GET'`. -/
def methodOf : Option Text → Text
  | none | some [] => ascii "GET"
  | some method => method

/-- The request is repeated as a `GET` without its body. -/
def rewritesToGet (method : Text) (status : ℕ) : Bool :=
  status == 303 || [301, 302].contains status && method.toUpperCase == ascii "POST"

section Loop

variable (parser : UrlParser) (env : Env) (options : FetchOptions)

def beforeRequest (state : FetchState) (hop : Hop) : Except AppError (Url × HostAddress) := do
  hop.begins
  let parsed ← parseSafeUrl parser env options.toUrlOptions state.nextUrl
  throwWhen (state.visited.contains parsed.href)
    (safeFetchFailed "Outbound redirect loop was rejected." "redirect" "Redirect loop detected.")
  let lookup ← hop.lookup
  let pinned ← assertResolvedHostIsSafe parser env options.toUrlOptions parsed lookup
  stepWhen (!state.transmissionStarted) hop.beforeTransmit
  hop.transmits
  pure (parsed, pinned)

def requestOf (state : FetchState) (parsed : Url) (pinned : HostAddress) : Request where
  url := parsed
  method := methodOf state.method
  headers := state.requestHeaders
  body := state.body
  pinned := pinned

/-- `redirectUrl(response, currentUrl)`, none for `null`. -/
def redirectUrl (response : Response) (currentUrl : Url) : Except AppError (Option Text) :=
  match response.location with
  | none | some [] => pure none
  | some location => some <$> orThrow remoteRequestFailed (parser.resolve location currentUrl)

def redirectHeaders (crossOrigin : Bool) (headers : HeaderEntries) :
    Except AppError HeaderEntries :=
  if crossOrigin then
    orThrow remoteRequestFailed (stripSensitiveHeadersForCrossOriginRedirect headers)
  else pure headers

def followRedirect (state : FetchState) (parsed : Url) (response : Response) :
    Except AppError FetchState := do
  let target ← redirectUrl parser response parsed
  let location ← orThrow
    (safeFetchFailed "Redirect response did not include a location." "redirect"
      "Redirect location is missing.") target
  throwWhen (countGe state.redirectCount options.redirectLimit)
    (safeFetchFailed "Outbound request exceeded the redirect limit." "redirect"
      "Too many redirects.")
  response.cancellation
  let redirectTarget ← orThrow remoteRequestFailed (parser.parse location)
  throwWhen (parsed.protocol == ascii "https:" && redirectTarget.protocol != ascii "https:")
    (unsafeUrl "HTTPS downgrade redirect was rejected." "redirect"
      "HTTPS-to-HTTP redirects are not allowed.")
  let crossOrigin := redirectTarget.origin != parsed.origin
  let method := (methodOf state.method).toUpperCase
  throwWhen (crossOrigin && !([ascii "GET", ascii "HEAD"].contains method))
    (unsafeUrl "Cross-origin side-effecting redirect was rejected." "redirect"
      "A request body is never resent across origins.")
  let requestHeaders ← redirectHeaders crossOrigin state.requestHeaders
  let rewrites := rewritesToGet (methodOf state.method) response.status
  throwWhen (!rewrites && [307, 308].contains response.status && crossOrigin)
    (unsafeUrl "Method-preserving cross-origin redirect was rejected." "redirect"
      "307/308 redirects may not move a request across origins.")
  pure
    { nextUrl := location
      requestHeaders := requestHeaders
      method := if rewrites then some (ascii "GET") else state.method
      body := if rewrites then none else state.body
      redirectCount := state.redirectCount + 1
      visited := parsed.href :: state.visited
      transmissionStarted := true }

def fetchLoop (state : FetchState) : List Hop → Fetch
  | [] => {}
  | hop :: hops =>
    if !countLe state.redirectCount options.redirectLimit then
      Fetch.fails (safeFetchFailed "Outbound request failed." "request"
        "safeFetch exited without a response.")
    else
      match beforeRequest parser env options state hop with
      | .error error => Fetch.fails error
      | .ok (parsed, pinned) =>
        let request := requestOf state parsed pinned
        match hop.response with
        | .error error => ⟨[⟨request, none⟩], some (.failed error)⟩
        | .ok response =>
          if 300 ≤ response.status ∧ response.status < 400 then
            match followRedirect parser options state parsed response with
            | .error error => ⟨[⟨request, some response.status⟩], some (.failed error)⟩
            | .ok next =>
              let rest := fetchLoop next hops
              { rest with sent := ⟨request, some response.status⟩ :: rest.sent }
          else
            ⟨[⟨request, some response.status⟩], some
              (match response.bodyText with
              | .error error => .failed error
              | .ok bodyText => .returned response.status parsed.href bodyText)⟩

def safeFetch (rawUrl : Text) (hops : List Hop) : Fetch :=
  fetchLoop parser env options
    { nextUrl := rawUrl
      requestHeaders := options.headers
      method := options.method
      body := options.body } hops

end Loop

end GhostBridge.OutboundRequests
