import GhostBridge.OutboundRequests.SafeFetch

/-!
# The requests of a fetch

What holds of the requests of one fetch, over every chain of redirections.
-/

namespace GhostBridge.OutboundRequests

open Ecma

section Runs

variable (parser : UrlParser) (env : Env) (options : FetchOptions)

structure Made (state : FetchState) (request : Request) : Prop where
  accepted : parseSafeUrl parser env options.toUrlOptions state.nextUrl = .ok request.url
  fresh : request.url.href ∉ state.visited
  counted : countLe state.redirectCount options.redirectLimit = true
  pinned : allowedPrivate parser env options.toUrlOptions request.url = true ∨
    isBlockedIp request.pinned.address = false
  headers : request.headers = state.requestHeaders
  body : request.body = state.body

structure Followed (state : FetchState) (parsed : Url) (status : ℕ) (target : Url)
    (next : FetchState) : Prop where
  nextUrl : parser.parse next.nextUrl = some target
  secure : parsed.protocol = ascii "https:" → target.protocol = ascii "https:"
  headers : next.requestHeaders = state.requestHeaders ∧ target.origin = parsed.origin ∨
    stripSensitiveHeadersForCrossOriginRedirect state.requestHeaders = some next.requestHeaders
  method : next.method =
    if rewritesToGet (methodOf state.method) status then some (ascii "GET") else state.method
  body : next.body = if rewritesToGet (methodOf state.method) status then none else state.body
  redirectCount : next.redirectCount = state.redirectCount + 1
  visited : next.visited = parsed.href :: state.visited

inductive Sends : FetchState → List Exchange → Prop where
  | silent (state : FetchState) : Sends state []
  | last {state : FetchState} {request : Request} (status : Option ℕ)
      (made : Made parser env options state request) : Sends state [⟨request, status⟩]
  | redirected {state next : FetchState} {request : Request} {status : ℕ} {target : Url}
      {sent : List Exchange} (made : Made parser env options state request)
      (followed : Followed parser state request.url status target next)
      (rest : Sends next sent) : Sends state (⟨request, some status⟩ :: sent)

variable {parser env options}

theorem beforeRequest_made {state : FetchState} {hop : Hop} {parsed : Url} {pinned : HostAddress}
    (hcount : countLe state.redirectCount options.redirectLimit = true)
    (h : beforeRequest parser env options state hop = .ok (parsed, pinned)) :
    Made parser env options state (requestOf state parsed pinned) := by
  simp only [beforeRequest, bind_ok, exists_unit, pure_ok, throwWhen_ok, Prod.mk.injEq] at h
  obtain ⟨-, url, haccepted, hfresh, lookup, -, address, hresolved, -, -, rfl, rfl⟩ := h
  exact
    { accepted := haccepted
      fresh := by
        intro hvisited
        have hcontains : state.visited.contains url.href = true :=
          List.contains_iff_mem.mpr hvisited
        rw [hfresh] at hcontains
        cases hcontains
      counted := hcount
      pinned := assertResolvedHostIsSafe_ok hresolved
      headers := rfl
      body := rfl }

theorem followRedirect_followed {state next : FetchState} {parsed : Url} {response : Response}
    (h : followRedirect parser options state parsed response = .ok next) :
    ∃ target, Followed parser state parsed response.status target next := by
  simp only [followRedirect, bind_ok, exists_unit, pure_ok, throwWhen_ok, orThrow_ok] at h
  obtain ⟨_, -, location, -, -, -, target, htarget, hsecure, -, headers, hheaders, -, rfl⟩ := h
  unfold redirectHeaders at hheaders
  refine ⟨target, htarget, fun hhttps => ?_, ?_, rfl, rfl, rfl, rfl⟩
  · simpa [hhttps] using hsecure
  · by_cases horigin : target.origin = parsed.origin
    · left
      simp only [horigin, bne_self_eq_false, Bool.false_eq_true, if_false, pure_ok] at hheaders
      exact ⟨hheaders.symm, horigin⟩
    · right
      simp only [bne_iff_ne.mpr horigin, if_true, orThrow_ok] at hheaders
      exact hheaders

theorem fetchLoop_sends (state : FetchState) (hops : List Hop) :
    Sends parser env options state (fetchLoop parser env options state hops).sent := by
  induction hops generalizing state with
  | nil => exact .silent state
  | cons hop hops ih =>
    unfold fetchLoop
    split
    · exact .silent state
    next hcount =>
      have hcounted : countLe state.redirectCount options.redirectLimit = true := by
        simpa using hcount
      split
      · exact .silent state
      next parsed pinned hbefore =>
        have hmade := beforeRequest_made hcounted hbefore
        split
        · exact .last none hmade
        next response hresponse =>
          split
          · split
            · exact .last _ hmade
            next next hnext =>
              obtain ⟨target, hfollowed⟩ := followRedirect_followed hnext
              exact .redirected hmade hfollowed (ih next)
          · exact .last _ hmade

variable {state : FetchState} {sent : List Exchange}

theorem Sends.safe (h : Sends parser env options state sent) : ∀ exchange ∈ sent,
    (∃ text, parseSafeUrl parser env options.toUrlOptions text = .ok exchange.request.url) ∧
      (allowedPrivate parser env options.toUrlOptions exchange.request.url = true ∨
        isBlockedIp exchange.request.pinned.address = false) := by
  intro exchange hexchange
  induction h with
  | silent state => cases hexchange
  | last status made =>
    obtain rfl := List.mem_singleton.mp hexchange
    exact ⟨⟨_, made.accepted⟩, made.pinned⟩
  | redirected made followed rest ih =>
    rcases List.mem_cons.mp hexchange with rfl | hexchange
    · exact ⟨⟨_, made.accepted⟩, made.pinned⟩
    · exact ih hexchange

theorem Sends.stays_secure (h : Sends parser env options state sent)
    (hnext : ∀ url, parser.parse state.nextUrl = some url → url.protocol = ascii "https:") :
    ∀ exchange ∈ sent, exchange.request.url.protocol = ascii "https:" := by
  intro exchange hexchange
  induction h with
  | silent state => cases hexchange
  | last status made =>
    obtain rfl := List.mem_singleton.mp hexchange
    exact hnext _ (parseSafeUrl_ok made.accepted)
  | redirected made followed rest ih =>
    have hsecure := hnext _ (parseSafeUrl_ok made.accepted)
    rcases List.mem_cons.mp hexchange with rfl | hexchange
    · exact hsecure
    · apply ih _ hexchange
      intro url hurl
      obtain rfl := Option.some.inj (followed.nextUrl.symm.trans hurl)
      exact followed.secure hsecure

theorem Sends.secure (h : Sends parser env options state sent) :
    sent.Pairwise fun earlier later => earlier.request.url.protocol = ascii "https:" →
      later.request.url.protocol = ascii "https:" := by
  induction h with
  | silent state => exact .nil
  | last status made => exact List.pairwise_singleton _ _
  | redirected made followed rest ih =>
    refine List.Pairwise.cons (fun later hlater hsecure => ?_) ih
    apply rest.stays_secure _ later hlater
    intro url hurl
    obtain rfl := Option.some.inj (followed.nextUrl.symm.trans hurl)
    exact followed.secure hsecure

theorem Sends.distinct (h : Sends parser env options state sent) :
    (∀ exchange ∈ sent, exchange.request.url.href ∉ state.visited) ∧
      (sent.map fun exchange => exchange.request.url.href).Nodup := by
  induction h with
  | silent state => exact ⟨fun _ hexchange => (by cases hexchange), List.nodup_nil⟩
  | last status made =>
    refine ⟨fun exchange hexchange => ?_, List.nodup_singleton _⟩
    obtain rfl := List.mem_singleton.mp hexchange
    exact made.fresh
  | redirected made followed rest ih =>
    obtain ⟨hfresh, hnodup⟩ := ih
    rw [followed.visited] at hfresh
    constructor
    · intro exchange hexchange
      rcases List.mem_cons.mp hexchange with rfl | hexchange
      · exact made.fresh
      · exact fun hvisited => hfresh exchange hexchange (List.mem_cons_of_mem _ hvisited)
    · rw [List.map_cons, List.nodup_cons]
      refine ⟨fun hmem => ?_, hnodup⟩
      obtain ⟨exchange, hexchange, hsame⟩ := List.mem_map.mp hmem
      exact hfresh exchange hexchange (hsame ▸ List.mem_cons_self)

theorem Sends.counted (h : Sends parser env options state sent) :
    ∀ index < sent.length,
      countLe (state.redirectCount + index) options.redirectLimit = true := by
  induction h with
  | silent state => exact fun index hindex => (by cases hindex)
  | last status made =>
    intro index hindex
    obtain rfl : index = 0 := by simpa using hindex
    exact made.counted
  | redirected made followed rest ih =>
    intro index hindex
    cases index with
    | zero => exact made.counted
    | succ index =>
      have hrest := ih index (by simpa using hindex)
      rwa [followed.redirectCount, Nat.add_assoc, Nat.add_comm 1 index] at hrest

def Stripped (headers : HeaderEntries) : Prop := ∀ header ∈ headers, header.1 ∈ crossOriginHeaders

theorem stripped_of_strip {headers stripped : HeaderEntries}
    (h : stripSensitiveHeadersForCrossOriginRedirect headers = some stripped) :
    Stripped stripped := by
  simp only [stripSensitiveHeadersForCrossOriginRedirect, newHeaders, Option.map_eq_some_iff,
    Option.ite_none_right_eq_some, Option.some.injEq] at h
  obtain ⟨_, ⟨-, rfl⟩, rfl⟩ := h
  intro header hheader
  obtain ⟨hmem, hkept⟩ := List.mem_filter.mp hheader
  have hlower : header.1.toLowerCase = header.1 := by
    obtain ⟨name, hname, rfl⟩ := List.mem_map.mp hmem
    rw [List.mem_mergeSort, List.mem_eraseDups, List.map_map] at hname
    obtain ⟨entry, -, rfl⟩ := List.mem_map.mp hname
    exact toLowerCase_of_forall_mem fun u hu => exists_of_mem_toLowerCase hu
  rw [hlower, Bool.and_eq_true] at hkept
  exact List.contains_iff_mem.mp hkept.2

theorem Sends.stripped (h : Sends parser env options state sent) (origin : Text)
    (hstate : Stripped state.requestHeaders ∨
      ∀ url, parser.parse state.nextUrl = some url → url.origin = origin) :
    ∀ exchange ∈ sent, exchange.request.url.origin ≠ origin →
      Stripped exchange.request.headers := by
  induction h with
  | silent state => exact fun exchange hexchange => (by cases hexchange)
  | last status made =>
    intro exchange hexchange horigin
    obtain rfl := List.mem_singleton.mp hexchange
    rcases hstate with hstripped | hsame
    · exact made.headers ▸ hstripped
    · exact absurd (hsame _ (parseSafeUrl_ok made.accepted)) horigin
  | redirected made followed rest ih =>
    intro exchange hexchange horigin
    rcases List.mem_cons.mp hexchange with rfl | hexchange
    · rcases hstate with hstripped | hsame
      · exact made.headers ▸ hstripped
      · exact absurd (hsame _ (parseSafeUrl_ok made.accepted)) horigin
    · apply ih _ exchange hexchange horigin
      rcases followed.headers with ⟨hheaders, htarget⟩ | hstrip
      · rcases hstate with hstripped | hsame
        · exact .inl (hheaders ▸ hstripped)
        · right
          intro url hurl
          obtain rfl := Option.some.inj (followed.nextUrl.symm.trans hurl)
          exact htarget.trans (hsame _ (parseSafeUrl_ok made.accepted))
      · exact .inl (stripped_of_strip hstrip)

/-- A request has no body exactly when the fetch began without one, or when an earlier answer has
rewritten it. -/
theorem Sends.body (h : Sends parser env options state sent) {before after : List Exchange}
    {exchange : Exchange} (hsent : sent = before ++ exchange :: after) :
    exchange.request.body = none ↔ state.body = none ∨
      ∃ earlier ∈ before, earlier.status.any (rewritesToGet (methodOf state.method)) = true := by
  induction h generalizing before with
  | silent state => simp at hsent
  | last status made =>
    obtain ⟨rfl, hexchange⟩ | hnil := List.singleton_eq_append_iff.mp hsent
    · obtain ⟨rfl, -⟩ := List.cons.inj hexchange
      rw [made.body]
      simp
    · simp at hnil
  | redirected made followed rest ih =>
    cases before with
    | nil =>
      obtain ⟨rfl, -⟩ := List.cons.inj hsent
      rw [made.body]
      simp
    | cons earlier before =>
      obtain ⟨rfl, hrest⟩ := List.cons.inj hsent
      rw [ih hrest, followed.body, followed.method]
      split
      next hrewrites => simp [hrewrites]
      next hkept => simp [hkept]

variable (parser env options)

structure Lawful (sent : List Exchange) : Prop where
  accepted : ∀ exchange ∈ sent,
    ∃ text, parseSafeUrl parser env options.toUrlOptions text = .ok exchange.request.url
  pinned : ∀ exchange ∈ sent,
    allowedPrivate parser env options.toUrlOptions exchange.request.url = true ∨
      isBlockedIp exchange.request.pinned.address = false
  encrypted : sent.Pairwise fun earlier later =>
    earlier.request.url.protocol = ascii "https:" → later.request.url.protocol ≠ ascii "http:"
  distinct : (sent.map fun exchange => exchange.request.url.href).Nodup
  bounded : ∀ index < sent.length, countLe index options.redirectLimit = true
  otherOrigins : ∀ first ∈ sent.head?, ∀ exchange ∈ sent,
    exchange.request.url.origin ≠ first.request.url.origin →
      Stripped exchange.request.headers ∧ exchange.request.body = none
  bodyless : sent.Pairwise fun earlier later =>
    earlier.request.body = none → later.request.body = none

/-- No body was given, or each request to another origin than the first comes after an answer that
makes a `GET` of the request. -/
def RewrittenInTime (sent : List Exchange) : Prop :=
  ∀ first ∈ sent.head?, ∀ before exchange after, sent = before ++ exchange :: after →
    exchange.request.url.origin ≠ first.request.url.origin →
      options.body = none ∨
        ∃ earlier ∈ before, earlier.status.any (rewritesToGet (methodOf options.method)) = true

variable {parser env options}

theorem Sends.bodyless (h : Sends parser env options state sent) :
    sent.Pairwise fun earlier later =>
      earlier.request.body = none → later.request.body = none := by
  induction h with
  | silent state => exact .nil
  | last status made => exact List.pairwise_singleton _ _
  | redirected made followed rest ih =>
    refine List.Pairwise.cons (fun later hlater hnone => ?_) ih
    obtain ⟨before, after, hsent⟩ := List.append_of_mem hlater
    apply (rest.body hsent).mpr
    left
    rw [followed.body, ← made.body, hnone, ite_self]

theorem Sends.first (h : Sends parser env options state sent) :
    ∀ first ∈ sent.head?, parser.parse state.nextUrl = some first.request.url := by
  intro first hfirst
  cases h with
  | silent => cases hfirst
  | last status made =>
    cases hfirst
    exact parseSafeUrl_ok made.accepted
  | redirected made followed rest =>
    cases hfirst
    exact parseSafeUrl_ok made.accepted

variable (parser env options)

/-- The requests of a fetch keep to the law exactly when no body goes on to another origin: none was
given, or an answer has made a `GET` of the request before. -/
theorem safeFetch_lawful_iff (rawUrl : Text) (hops : List Hop) :
    Lawful parser env options (safeFetch parser env options rawUrl hops).sent ↔
      RewrittenInTime options (safeFetch parser env options rawUrl hops).sent := by
  have hsends : Sends parser env options _ (safeFetch parser env options rawUrl hops).sent :=
    fetchLoop_sends _ hops
  constructor
  · intro hlawful first hfirst before exchange after hsent horigin
    have hexchange : exchange ∈ (safeFetch parser env options rawUrl hops).sent := by
      rw [hsent]
      exact List.mem_append_right before List.mem_cons_self
    exact (hsends.body hsent).mp (hlawful.otherOrigins first hfirst exchange hexchange horigin).2
  · intro hrewritten
    exact
      { accepted := fun exchange hexchange => (hsends.safe exchange hexchange).1
        pinned := fun exchange hexchange => (hsends.safe exchange hexchange).2
        encrypted := hsends.secure.imp fun hsecure hhttps => by
          rw [hsecure hhttps]
          decide
        distinct := hsends.distinct.2
        bounded := fun index hindex => by simpa using hsends.counted index hindex
        otherOrigins := fun first hfirst exchange hexchange horigin => by
          obtain ⟨before, after, hsent⟩ := List.append_of_mem hexchange
          constructor
          · apply hsends.stripped first.request.url.origin (.inr fun url hurl => ?_) exchange
              hexchange horigin
            rw [Option.some.inj (hurl.symm.trans (hsends.first first hfirst))]
          · exact (hsends.body hsent).mpr (hrewritten first hfirst before exchange after hsent horigin)
        bodyless := hsends.bodyless }

end Runs

private def exampleUrl (host : String) : Url where
  href := ascii "https://" ++ ascii host ++ ascii "/"
  origin := ascii "https://" ++ ascii host
  protocol := ascii "https:"
  username := []
  password := []
  hostname := ascii host
  port := []
  pathname := ascii "/"
  search := []
  hash := []

private def exampleParser : UrlParser where
  parse text := [exampleUrl "a.example", exampleUrl "b.example"].find? (·.href == text)
  resolve text _ := some text

private def exampleEnv : Env := ⟨ascii "production", ascii "3000", false, none⟩

private def exampleFetchOptions : FetchOptions :=
  { headers := [(ascii "Authorization", ascii "t")], body := some (ascii "s") }

private def exampleHop (response : Response) : Hop where
  lookup := .ok (some [⟨ascii "93.184.215.14", .ipv4⟩])
  response := .ok response

/-- A `GET` with a body is redirected from one origin to the other. -/
private def redirectedHops : List Hop :=
  [exampleHop { status := 302, location := some (ascii "https://b.example/") },
    exampleHop { status := 200 }]

/-- The request to the other origin has lost its headers, and has the body. -/
theorem safeFetch_not_lawful_redirected :
    ¬ Lawful exampleParser exampleEnv exampleFetchOptions
      (safeFetch exampleParser exampleEnv exampleFetchOptions (ascii "https://a.example/")
        redirectedHops).sent := by
  have hsent : (safeFetch exampleParser exampleEnv exampleFetchOptions
      (ascii "https://a.example/") redirectedHops).sent =
        [⟨⟨exampleUrl "a.example", ascii "GET", [(ascii "Authorization", ascii "t")],
            some (ascii "s"), ⟨ascii "93.184.215.14", .ipv4⟩⟩, some 302⟩,
          ⟨⟨exampleUrl "b.example", ascii "GET", [], some (ascii "s"),
            ⟨ascii "93.184.215.14", .ipv4⟩⟩, some 200⟩] := by decide +kernel
  rw [hsent]
  intro hlawful
  have hother := hlawful.otherOrigins _ rfl _ (List.mem_cons_of_mem _ List.mem_cons_self)
    (by decide)
  cases hother.2

end GhostBridge.OutboundRequests
