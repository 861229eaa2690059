import CfIntegration.Mcp.Gateway

/-! # The authentication proxy

A proxy on the local machine adds the bearer token to the requests of the conformance
suite and sends them on. The headers that belong to one connection only are left out,
and the proxy's own address is replaced by that of the gateway.
-/

namespace CfIntegration.Mcp.AuthProxy

open Gateway
open Protocol (isWhitespace)

def HeaderMap.remove (headers : HeaderMap) (name : String) : HeaderMap :=
  headers.filter fun header => header.1 ≠ name

/-- The value takes the place of all values that the name had. The order of headers
with different names does not count. -/
def HeaderMap.insert (headers : HeaderMap) (name : String) (value : List UInt8) : HeaderMap :=
  HeaderMap.remove headers name ++ [(name, value)]

/-- Removing a header removes all of its values and no other's. -/
theorem getAll_remove (headers : HeaderMap) (removed name : String) :
    HeaderMap.getAll (HeaderMap.remove headers removed) name =
      if name = removed then [] else headers.getAll name := by
  unfold HeaderMap.getAll HeaderMap.remove
  rw [List.filter_filter]
  split
  next heq =>
    have hnone : (headers.filter fun header =>
        decide (header.1 = name) && decide (header.1 ≠ removed)) = [] := by
      simp [heq]
    rw [hnone, List.map_nil]
  next hne =>
    refine congrArg (List.map Prod.snd) (List.filter_congr fun header _ => ?_)
    by_cases hname : header.1 = name
    · simp [hname, hne]
    · simp [hname]

/-- Inserting a header replaces all of its values. -/
theorem getAll_insert (headers : HeaderMap) (inserted name : String) (value : List UInt8) :
    HeaderMap.getAll (HeaderMap.insert headers inserted value) name =
      if name = inserted then [value] else headers.getAll name := by
  have happend : HeaderMap.getAll (HeaderMap.insert headers inserted value) name =
      HeaderMap.getAll (HeaderMap.remove headers inserted) name ++
        HeaderMap.getAll [(inserted, value)] name := by
    simp [HeaderMap.getAll, HeaderMap.insert]
  rw [happend, getAll_remove]
  by_cases heq : name = inserted
  · simp [heq, HeaderMap.getAll]
  · simp [heq, Ne.symm heq, HeaderMap.getAll]

theorem getAll_foldl_remove (names : List String) (headers : HeaderMap) (name : String) :
    HeaderMap.getAll (names.foldl HeaderMap.remove headers) name =
      if name ∈ names then [] else headers.getAll name := by
  induction names generalizing headers with
  | nil => rfl
  | cons removed names ih =>
      rw [List.foldl_cons, ih, getAll_remove]
      by_cases heq : name = removed <;> simp [heq]

def isNameChar (char : Char) : Bool :=
  char.isAlphanum || char ∈ "!#$%&'*+-.^_`|~".toList

/-- The header name that a text is, in lower case. -/
def headerName (text : List Char) : Option String :=
  if text ≠ [] ∧ text.all isNameChar = true then some (String.ofList (text.map Char.toLower))
  else none

def connection : String := "connection"
def authorization : String := "authorization"
def contentLength : String := "content-length"
def host : String := "host"
def origin : String := "origin"

/-- A value with other bytes than visible ASCII is passed over. -/
def connectionNamedHeaders (headers : HeaderMap) : List String :=
  (((headers.getAll connection).filterMap toStr).flatMap (List.splitOn ',')).filterMap
    fun name => headerName (Text.trim isWhitespace name)

def hopByHopHeaders : List String :=
  ["connection", "keep-alive", "proxy-authenticate", "proxy-authorization", "proxy-connection",
    "te", "trailer", "transfer-encoding", "upgrade"]

def endToEndHeaders (headers : HeaderMap) (isRequest : Bool) : HeaderMap :=
  let headers := (connectionNamedHeaders headers).foldl HeaderMap.remove headers
  let headers := hopByHopHeaders.foldl HeaderMap.remove headers
  if isRequest then HeaderMap.remove (HeaderMap.remove headers authorization) contentLength
  else headers

/-- The end-to-end headers leave out the length, the credentials, the hop-by-hop headers and what
a connection option names. -/
theorem getAll_endToEndHeaders (headers : HeaderMap) (name : String) :
    HeaderMap.getAll (endToEndHeaders headers true) name =
      if name = contentLength ∨ name = authorization ∨ name ∈ hopByHopHeaders ∨
          name ∈ connectionNamedHeaders headers then []
      else headers.getAll name := by
  simp only [endToEndHeaders, if_true, getAll_remove, getAll_foldl_remove]
  by_cases hlength : name = contentLength
  · simp [hlength]
  by_cases hauthorization : name = authorization
  · simp [hauthorization]
  by_cases hhop : name ∈ hopByHopHeaders
  · simp [hlength, hauthorization, hhop]
  by_cases hnamed : name ∈ connectionNamedHeaders headers <;>
    simp [hlength, hauthorization, hhop, hnamed]

inductive AuthProxyError where
  | invalidUpstream
  | invalidBearerToken
  | bind
  | endpointConfiguration
  deriving DecidableEq, Repr

/-- An absolute HTTP URL without credentials or a fragment. -/
def validateUpstream (upstream : Url) : Except AuthProxyError Unit :=
  let validScheme := upstream.scheme = "http" ∨ upstream.scheme = "https"
  let hasAuthority := upstream.hasHost = true ∧ upstream.cannotBeABase = false
  let hasCredentials := upstream.username ≠ "" ∨ upstream.password ≠ none
  if ¬ validScheme ∨ ¬ hasAuthority ∨ hasCredentials ∨ upstream.fragment ≠ none then
    .error .invalidUpstream
  else .ok ()

/-- What stands between the scheme and the path of a URL without credentials. -/
def authorityOf (url : Url) : List Char := url.before.drop (url.scheme.toList.length + 3)

/-- The origin of an HTTP URL without credentials. -/
def originOf (url : Url) : List Char := url.before

structure ProxyState where
  upstream : Url
  destination : Url
  authorization : List UInt8
  proxyPath : List Char
  loopbackAuthority : List Char
  requireDataplaneBackend : Bool
  protocolVersion : Option String
  validUpstream : validateUpstream upstream = .ok ()
  validDestination : validateUpstream destination = .ok ()

section Proxy

variable (headerValue : List Char → Option (List UInt8))

/-- Put a header value in the place of the proxy's own one. -/
def rewriteOwn (name : String) (own replacement : List Char) (headers : HeaderMap) : HeaderMap :=
  match (headers.get? name).bind toStr with
  | none => headers
  | some value =>
      if value = own then
        match headerValue replacement with
        | some value => HeaderMap.insert headers name value
        | none => headers
      else headers

def rewriteLoopbackHost (state : ProxyState) : HeaderMap → HeaderMap :=
  rewriteOwn headerValue host state.loopbackAuthority (authorityOf state.upstream)

def loopbackOrigin (state : ProxyState) : List Char := "http://".toList ++ state.loopbackAuthority

def rewriteLoopbackOrigin (state : ProxyState) : HeaderMap → HeaderMap :=
  rewriteOwn headerValue origin (loopbackOrigin state) (originOf state.upstream)

/-- The headers that are sent on. -/
def forwardedHeaders (state : ProxyState) (headers : HeaderMap) : HeaderMap :=
  let headers := endToEndHeaders headers true
  let headers := rewriteLoopbackHost headerValue state headers
  let headers := rewriteLoopbackOrigin headerValue state headers
  HeaderMap.insert headers authorization state.authorization

inductive Method where
  | get
  | post
  | delete
  | other
  deriving DecidableEq, Repr

structure InboundRequest where
  method : Method
  path : List Char
  query : Option (List Char)
  headers : HeaderMap
  chunks : List (List UInt8)
  broken : Bool

structure ForwardedRequest where
  method : Method
  url : List Char
  headers : HeaderMap
  body : List UInt8

def maxRequestBodyBytes : Nat := 4 * 1024 * 1024

def emptyResponse (status : Nat) : Response := ⟨status, [], [], false⟩

def methodNotAllowed : Response :=
  { emptyResponse 405 with headers := [("allow", utf8 "GET, POST, DELETE".toList)] }

/-- An entry of an object whose keys are sorted. -/
def insertEntry (key : String) (value : Value) : List (String × Value) → List (String × Value)
  | [] => [(key, value)]
  | (first, held) :: rest =>
      if key = first then (key, value) :: rest
      else if key < first then (key, value) :: (first, held) :: rest
      else (first, held) :: insertEntry key value rest

variable (fromSlice : List UInt8 → Option Value) (toVec : Value → List UInt8)

/-- An initialize request asks for the version, if it has parameters at all. -/
def rewriteInitializeProtocolVersion (body : List UInt8) (version : String) : List UInt8 :=
  match fromSlice body with
  | none => body
  | some request =>
      if (request.get? "method").bind Value.asStr ≠ some "initialize" then body
      else
        match request.asObject, (request.get? "params").bind Value.asObject with
        | some entries, some params =>
            toVec (.object (insertEntry "params"
              (.object (insertEntry "protocolVersion" (.string version) params)) entries))
        | _, _ => body

/-- The request that is sent on, or the answer to one that is not. -/
def forwardRequest (state : ProxyState) (request : InboundRequest) :
    Except Response ForwardedRequest :=
  if request.method = .other then .error methodNotAllowed
  else if request.path ≠ state.proxyPath ∨ request.query ≠ none then .error (emptyResponse 404)
  else if request.broken = true ∨ maxRequestBodyBytes < request.chunks.flatten.length then
    .error (emptyResponse 413)
  else .ok {
    method := request.method
    url := state.destination.asStr
    headers := forwardedHeaders headerValue state request.headers
    body := match state.protocolVersion with
      | some version =>
          rewriteInitializeProtocolVersion fromSlice toVec request.chunks.flatten version
      | none => request.chunks.flatten }

/-- The options that a value lists, whatever its bytes are. -/
def connectionOptions (value : List UInt8) : List String :=
  ((value.map fun byte => Char.ofNat byte.toNat).splitOn ',').filterMap
    fun name => headerName (Text.trim (fun char => char = ' ' || char = '\t') name)

/-- The name is an option of a connection header. -/
def ConnectionNames (headers : HeaderMap) (name : String) : Prop :=
  ∃ value ∈ headers.getAll connection, name ∈ connectionOptions value

theorem mem_splitOn {separator char : Char} {text part : List Char}
    (hpart : part ∈ text.splitOn separator) (hchar : char ∈ part) : char ∈ text := by
  have hinside : ∀ parts : List (List Char), part ∈ parts →
      char ∈ [separator].intercalate parts := by
    intro parts hmem
    induction parts with
    | nil => cases hmem
    | cons first parts ih =>
        cases parts with
        | nil =>
            cases List.mem_singleton.mp hmem
            simpa using hchar
        | cons second parts =>
            rw [List.intercalate_cons_cons]
            rcases List.mem_cons.mp hmem with rfl | hmem
            · exact List.mem_append_left _ (List.mem_append_left _ hchar)
            · exact List.mem_append_right _ (ih hmem)
  have hall := hinside _ hpart
  rwa [List.intercalate_splitOn] at hall

theorem options_of_toStr {value : List UInt8} {text : List Char} (htext : toStr value = some text) :
    connectionOptions value = (text.splitOn ',').filterMap
      fun name => headerName (Text.trim isWhitespace name) := by
  unfold toStr at htext
  split at htext
  next hvisible =>
    cases htext
    refine List.filterMap_congr fun part hpart => ?_
    rw [Text.trim_congr fun char hchar => ?_]
    obtain ⟨byte, hbyte, rfl⟩ := List.mem_map.mp (mem_splitOn hpart hchar)
    have hall : ∀ code < 256, (code = 0x09 ∨ (0x20 ≤ code ∧ code < 0x7f)) →
        (decide (Char.ofNat code = ' ') || decide (Char.ofNat code = '\t')) =
          isWhitespace (Char.ofNat code) := by decide +kernel
    refine hall byte.toNat byte.toNat_lt ?_
    have hbyteVisible := List.all_eq_true.mp hvisible byte hbyte
    simp only [Bool.or_eq_true, Bool.and_eq_true, decide_eq_true_eq, UInt8.le_iff_toNat_le,
      UInt8.lt_iff_toNat_lt] at hbyteVisible
    rcases hbyteVisible with rfl | hbyteVisible
    · exact .inl rfl
    · exact .inr hbyteVisible
  next => cases htext

/-- The proxy knows the options of the values that it can read. -/
theorem mem_connectionNamedHeaders {headers : HeaderMap} {name : String} :
    name ∈ connectionNamedHeaders headers ↔
      ∃ value ∈ headers.getAll connection, toStr value ≠ none ∧ name ∈ connectionOptions value := by
  unfold connectionNamedHeaders
  simp only [List.mem_filterMap, List.mem_flatMap]
  constructor
  · rintro ⟨part, ⟨text, ⟨value, hvalue, htext⟩, hpart⟩, hname⟩
    refine ⟨value, hvalue, by simp [htext], ?_⟩
    rw [options_of_toStr htext]
    exact List.mem_filterMap.mpr ⟨part, hpart, hname⟩
  · rintro ⟨value, hvalue, htext, hname⟩
    obtain ⟨text, htext⟩ := Option.ne_none_iff_exists'.mp htext
    rw [options_of_toStr htext] at hname
    obtain ⟨part, hpart, hname⟩ := List.mem_filterMap.mp hname
    exact ⟨part, ⟨text, ⟨value, hvalue, htext⟩, hpart⟩, hname⟩

/-- Every header that is dropped as an option is named by one. -/
theorem ConnectionNames.of_mem {headers : HeaderMap} {name : String}
    (hname : name ∈ connectionNamedHeaders headers) : ConnectionNames headers name := by
  obtain ⟨value, hvalue, _, hname⟩ := mem_connectionNamedHeaders.mp hname
  exact ⟨value, hvalue, hname⟩

/-- A value and what is sent in its place. -/
def Rewrites (own replacement : List Char) (value sent : List UInt8) : Prop :=
  sent = value ∨ (toStr value = some own ∧ headerValue replacement = some sent)

/-- The headers are sent on as they should be: the configured authorization, nothing
that belongs to the connection, and everything else value for value. -/
structure Forwards (state : ProxyState) (headers sent : HeaderMap) : Prop where
  configured : sent.getAll authorization = [state.authorization]
  hopByHop : ∀ name ∈ hopByHopHeaders, sent.getAll name = []
  options : ∀ name, name ≠ authorization → ConnectionNames headers name → sent.getAll name = []
  host : ¬ ConnectionNames headers host → List.Forall₂
    (Rewrites headerValue state.loopbackAuthority (authorityOf state.upstream))
    (headers.getAll host) (sent.getAll host)
  origin : ¬ ConnectionNames headers origin → List.Forall₂
    (Rewrites headerValue (loopbackOrigin state) (originOf state.upstream))
    (headers.getAll origin) (sent.getAll origin)
  others : ∀ name, name ∉ [authorization, contentLength, AuthProxy.host, AuthProxy.origin] →
    name ∉ hopByHopHeaders → ¬ ConnectionNames headers name →
      sent.getAll name = headers.getAll name

/-- The proxy's own value comes first and is replaced, with other values after it. -/
def Drops (headers : HeaderMap) (name : String) (own replacement : List Char) : Prop :=
  ¬ ConnectionNames headers name ∧ ∃ first rest, headers.getAll name = first :: rest ∧
    toStr first = some own ∧ headerValue replacement ≠ none ∧ rest ≠ []

/-- What makes the proxy send the headers on as it should. -/
structure Regular (state : ProxyState) (headers : HeaderMap) : Prop where
  readable : ∀ value ∈ headers.getAll connection, toStr value = none →
    ∀ name ∈ connectionOptions value, name ∉ authorization :: contentLength :: hopByHopHeaders →
      name ∉ connectionNamedHeaders headers → headers.getAll name = []
  host : ¬ Drops headerValue headers host state.loopbackAuthority (authorityOf state.upstream)
  origin : ¬ Drops headerValue headers origin (loopbackOrigin state) (originOf state.upstream)

section Rewriting

variable {headerValue} {name : String} {own replacement : List Char} {headers : HeaderMap}

theorem getAll_rewriteOwn_of_ne {other : String} (hne : other ≠ name) :
    HeaderMap.getAll (rewriteOwn headerValue name own replacement headers) other =
      headers.getAll other := by
  unfold rewriteOwn
  split
  · rfl
  split
  · split
    · rw [getAll_insert, if_neg hne]
    · rfl
  · rfl

/-- The own value is replaced when the first value is the proxy's. -/
theorem getAll_rewriteOwn :
    HeaderMap.getAll (rewriteOwn headerValue name own replacement headers) name =
      match headers.getAll name with
      | [] => []
      | first :: rest =>
          if toStr first = some own then
            match headerValue replacement with
            | some value => [value]
            | none => first :: rest
          else first :: rest := by
  unfold rewriteOwn HeaderMap.get?
  cases hall : headers.getAll name with
  | nil => simpa using hall
  | cons first rest =>
      rw [List.head?_cons, Option.bind_some]
      dsimp only
      cases htext : toStr first with
      | none => simpa using hall
      | some text =>
          by_cases hown : text = own
          · cases headerValue replacement with
            | none => simpa [hown] using hall
            | some value => simp [hown, getAll_insert]
          · simpa [hown] using hall

/-- Every value is kept or replaced, unless values are dropped. -/
theorem rewriteOwn_forall₂_iff (hnamed : ¬ ConnectionNames headers name) {kept : HeaderMap}
    (hkept : kept.getAll name = headers.getAll name) :
    List.Forall₂ (Rewrites headerValue own replacement) (headers.getAll name)
        (HeaderMap.getAll (rewriteOwn headerValue name own replacement kept) name) ↔
      ¬ Drops headerValue headers name own replacement := by
  have hself : ∀ values : List (List UInt8),
      List.Forall₂ (Rewrites headerValue own replacement) values values := fun values =>
    List.forall₂_same.mpr fun value _ => .inl rfl
  rw [getAll_rewriteOwn, hkept]
  constructor
  · rintro hvalues ⟨-, first, rest, hall, hown, hvalue, hrest⟩
    obtain ⟨value, hvalue⟩ := Option.ne_none_iff_exists'.mp hvalue
    have hlength := hvalues.length_eq
    rw [hall] at hlength
    simp only [hown, if_true, hvalue, List.length_cons, List.length_nil, Nat.zero_add,
      Nat.add_eq_right, List.length_eq_zero_iff] at hlength
    exact hrest hlength
  · intro hdrops
    cases hall : headers.getAll name with
    | nil => exact .nil
    | cons first rest =>
        dsimp only
        split
        next hown =>
          cases hvalue : headerValue replacement with
          | none => exact hself _
          | some value =>
              have hrest : rest = [] := by
                by_contra hrest
                exact hdrops ⟨hnamed, first, rest, hall, hown, by simp [hvalue], hrest⟩
              rw [hrest]
              exact .cons (.inr ⟨hown, hvalue⟩) .nil
        next => exact hself _

theorem getAll_rewriteOwn_eq_nil :
    HeaderMap.getAll (rewriteOwn headerValue name own replacement headers) name = [] ↔
      headers.getAll name = [] := by
  rw [getAll_rewriteOwn]
  cases headers.getAll name with
  | nil => simp
  | cons first rest =>
      dsimp only
      split
      · split <;> simp
      · simp

end Rewriting

section Sent

variable {headerValue} {state : ProxyState} {headers : HeaderMap}

/-- Other headers are forwarded as the end-to-end headers have them. -/
theorem getAll_forwardedHeaders {name : String} (hauthorization : name ≠ authorization)
    (hhost : name ≠ host) (horigin : name ≠ origin) :
    HeaderMap.getAll (forwardedHeaders headerValue state headers) name =
      HeaderMap.getAll (endToEndHeaders headers true) name := by
  rw [forwardedHeaders, getAll_insert, if_neg hauthorization, rewriteLoopbackOrigin,
    getAll_rewriteOwn_of_ne horigin, rewriteLoopbackHost, getAll_rewriteOwn_of_ne hhost]

theorem getAll_forwardedHeaders_host :
    HeaderMap.getAll (forwardedHeaders headerValue state headers) host =
      HeaderMap.getAll (rewriteLoopbackHost headerValue state (endToEndHeaders headers true))
        host := by
  rw [forwardedHeaders, getAll_insert, if_neg (by decide), rewriteLoopbackOrigin,
    getAll_rewriteOwn_of_ne (by decide)]

theorem getAll_forwardedHeaders_origin :
    HeaderMap.getAll (forwardedHeaders headerValue state headers) origin =
      HeaderMap.getAll (rewriteLoopbackOrigin headerValue state
        (rewriteLoopbackHost headerValue state (endToEndHeaders headers true))) origin := by
  rw [forwardedHeaders, getAll_insert, if_neg (by decide)]

/-- A header is sent on unless it is one that the proxy takes out. -/
theorem getAll_forwardedHeaders_eq_nil {name : String} (hauthorization : name ≠ authorization) :
    HeaderMap.getAll (forwardedHeaders headerValue state headers) name = [] ↔
      HeaderMap.getAll (endToEndHeaders headers true) name = [] := by
  by_cases hhost : name = host
  · rw [hhost, getAll_forwardedHeaders_host, rewriteLoopbackHost, getAll_rewriteOwn_eq_nil]
  by_cases horigin : name = origin
  · rw [horigin, getAll_forwardedHeaders_origin, rewriteLoopbackOrigin, getAll_rewriteOwn_eq_nil,
      rewriteLoopbackHost, getAll_rewriteOwn_of_ne (by decide)]
  · rw [getAll_forwardedHeaders hauthorization hhost horigin]

theorem getAll_endToEndHeaders_of_kept {name : String} (hlength : name ≠ contentLength)
    (hauthorization : name ≠ authorization) (hhop : name ∉ hopByHopHeaders)
    (hnamed : ¬ ConnectionNames headers name) :
    HeaderMap.getAll (endToEndHeaders headers true) name = headers.getAll name := by
  rw [getAll_endToEndHeaders, if_neg]
  rintro (heq | heq | hmem | hmem)
  · exact hlength heq
  · exact hauthorization heq
  · exact hhop hmem
  · exact hnamed (.of_mem hmem)

/-- The hosts are forwarded one by one exactly where none is dropped. -/
theorem host_forall₂_iff (hnamed : ¬ ConnectionNames headers host) :
    List.Forall₂ (Rewrites headerValue state.loopbackAuthority (authorityOf state.upstream))
        (headers.getAll host)
        (HeaderMap.getAll (forwardedHeaders headerValue state headers) host) ↔
      ¬ Drops headerValue headers host state.loopbackAuthority (authorityOf state.upstream) := by
  rw [getAll_forwardedHeaders_host]
  exact rewriteOwn_forall₂_iff hnamed
    (getAll_endToEndHeaders_of_kept (by decide) (by decide) (by decide) hnamed)

/-- The origins are forwarded one by one exactly where none is dropped. -/
theorem origin_forall₂_iff (hnamed : ¬ ConnectionNames headers origin) :
    List.Forall₂ (Rewrites headerValue (loopbackOrigin state) (originOf state.upstream))
        (headers.getAll origin)
        (HeaderMap.getAll (forwardedHeaders headerValue state headers) origin) ↔
      ¬ Drops headerValue headers origin (loopbackOrigin state) (originOf state.upstream) := by
  rw [getAll_forwardedHeaders_origin]
  refine rewriteOwn_forall₂_iff hnamed ?_
  rw [rewriteLoopbackHost, getAll_rewriteOwn_of_ne (by decide)]
  exact getAll_endToEndHeaders_of_kept (by decide) (by decide) (by decide) hnamed

/-- The request is forwarded faithfully exactly where its headers are regular. -/
theorem forwardedHeaders_forwards_iff :
    Forwards headerValue state headers (forwardedHeaders headerValue state headers) ↔
      Regular headerValue state headers := by
  -- Headers that are removed on purpose are gone, whatever their values.
  have hgone : ∀ name, name ≠ authorization → (name = contentLength ∨ name ∈ hopByHopHeaders ∨
      name ∈ connectionNamedHeaders headers) →
      HeaderMap.getAll (forwardedHeaders headerValue state headers) name = [] := by
    intro name hauthorization hremoved
    rw [getAll_forwardedHeaders_eq_nil hauthorization, getAll_endToEndHeaders, if_pos]
    rcases hremoved with heq | hmem | hmem
    · exact .inl heq
    · exact .inr (.inr (.inl hmem))
    · exact .inr (.inr (.inr hmem))
  constructor
  · intro hforwards
    refine ⟨?_, fun hdrops => ?_, fun hdrops => ?_⟩
    · intro value hvalue _ name hname hkept hnamed
      simp only [List.mem_cons, not_or] at hkept
      have hsent := hforwards.options name hkept.1 ⟨value, hvalue, hname⟩
      rw [getAll_forwardedHeaders_eq_nil hkept.1, getAll_endToEndHeaders, if_neg] at hsent
      · exact hsent
      · rintro (heq | heq | hmem | hmem)
        · exact hkept.2.1 heq
        · exact hkept.1 heq
        · exact hkept.2.2 hmem
        · exact hnamed hmem
    · exact (host_forall₂_iff hdrops.1).mp (hforwards.host hdrops.1) hdrops
    · exact (origin_forall₂_iff hdrops.1).mp (hforwards.origin hdrops.1) hdrops
  · intro hregular
    refine ⟨?_, fun name hmem => ?_, fun name hauthorization hnames => ?_,
      fun hnamed => (host_forall₂_iff hnamed).mpr hregular.host,
      fun hnamed => (origin_forall₂_iff hnamed).mpr hregular.origin,
      fun name hother hhop hnamed => ?_⟩
    · rw [forwardedHeaders, getAll_insert, if_pos rfl]
    · have hauthorization : name ≠ authorization := by
        rintro rfl
        revert hmem
        decide
      exact hgone name hauthorization (.inr (.inl hmem))
    · by_cases hremoved : name = contentLength ∨ name ∈ hopByHopHeaders ∨
          name ∈ connectionNamedHeaders headers
      · exact hgone name hauthorization hremoved
      · rw [not_or, not_or] at hremoved
        obtain ⟨value, hvalue, hname⟩ := hnames
        -- The name comes from a header value that is not text, so it was not read as an option.
        have hunreadable : toStr value = none := by
          by_contra hreadable
          exact hremoved.2.2 (mem_connectionNamedHeaders.mpr ⟨value, hvalue, hreadable, hname⟩)
        have hinbound := hregular.readable value hvalue hunreadable name hname
          (by simp [hauthorization, hremoved.1, hremoved.2.1]) hremoved.2.2
        rw [getAll_forwardedHeaders_eq_nil hauthorization, getAll_endToEndHeaders, hinbound,
          ite_self]
    · simp only [List.mem_cons, List.not_mem_nil, or_false, not_or] at hother
      obtain ⟨hauthorization, hlength, hhost, horigin⟩ := hother
      rw [getAll_forwardedHeaders hauthorization hhost horigin,
        getAll_endToEndHeaders_of_kept hlength hauthorization hhop hnamed]

end Sent

variable {fromSlice : List UInt8 → Option Value} {toVec : Value → List UInt8}

/-- The headers of a request are sent on as they should be exactly when every Connection
value that names a header can be read and no value is dropped beside the proxy's own. -/
theorem forwardRequest_forwards_iff {state : ProxyState} {request : InboundRequest}
    {outbound : ForwardedRequest}
    (hforward : forwardRequest headerValue fromSlice toVec state request = .ok outbound) :
    Forwards headerValue state request.headers outbound.headers ↔
      Regular headerValue state request.headers := by
  have hheaders : outbound.headers = forwardedHeaders headerValue state request.headers := by
    unfold forwardRequest at hforward
    split at hforward
    · cases hforward
    split at hforward
    · cases hforward
    split at hforward
    · cases hforward
    · cases hforward
      rfl
  rw [hheaders]
  exact forwardedHeaders_forwards_iff

end Proxy

def gatewayUrl : Url where
  before := "http://gateway.example:8080".toList
  scheme := "http"
  username := ""
  password := none
  hasHost := true
  cannotBeABase := false
  path := "/mcp".toList
  query := none
  fragment := none

def localState : ProxyState where
  upstream := gatewayUrl
  destination := gatewayUrl
  authorization := utf8 "Bearer token".toList
  proxyPath := "/mcp-auth/0".toList
  loopbackAuthority := "127.0.0.1:4000".toList
  requireDataplaneBackend := false
  protocolVersion := none
  validUpstream := by decide
  validDestination := by decide

/-- A request to the proxy, with these origins. -/
def originRequest (origins : List String) : InboundRequest where
  method := .post
  path := "/mcp-auth/0".toList
  query := none
  headers := (host, utf8 "127.0.0.1:4000".toList) ::
    origins.map fun value => (origin, utf8 value.toList)
  chunks := []
  broken := false

/-- The proxy's own host is replaced, a foreign origin is not. -/
theorem forwardRequest_forwards_foreign :
    ∃ outbound, forwardRequest (fun text => some (utf8 text)) (fun _ => none) (fun _ => [])
        localState (originRequest ["http://evil.example"]) = .ok outbound ∧
      Forwards (fun text => some (utf8 text)) localState
        (originRequest ["http://evil.example"]).headers outbound.headers := by
  refine ⟨_, rfl, (@forwardRequest_forwards_iff (fun text => some (utf8 text)) (fun _ => none)
    (fun _ => []) localState (originRequest ["http://evil.example"]) _ rfl).mpr ⟨?_, ?_, ?_⟩⟩
  · have hnone : (originRequest ["http://evil.example"]).headers.getAll connection = [] := by
      decide +kernel
    rw [hnone]
    nofun
  · rintro ⟨-, first, rest, hall, -, -, hrest⟩
    have hone : (originRequest ["http://evil.example"]).headers.getAll host =
        [utf8 "127.0.0.1:4000".toList] := by decide +kernel
    rw [hone] at hall
    cases hall
    exact hrest rfl
  · rintro ⟨-, first, rest, hall, -, -, hrest⟩
    have hone : (originRequest ["http://evil.example"]).headers.getAll origin =
        [utf8 "http://evil.example".toList] := by decide +kernel
    rw [hone] at hall
    cases hall
    exact hrest rfl

/-- A foreign origin after the proxy's own one is lost. -/
theorem forwardRequest_drops_origin :
    ∃ outbound, forwardRequest (fun text => some (utf8 text)) (fun _ => none) (fun _ => [])
        localState (originRequest ["http://127.0.0.1:4000", "http://evil.example"]) =
          .ok outbound ∧
      ¬ Forwards (fun text => some (utf8 text)) localState
        (originRequest ["http://127.0.0.1:4000", "http://evil.example"]).headers
        outbound.headers := by
  refine ⟨_, rfl, fun hforwards => ?_⟩
  have hnamed : ¬ ConnectionNames
      (originRequest ["http://127.0.0.1:4000", "http://evil.example"]).headers origin := by
    rintro ⟨value, hvalue, -⟩
    have hnone : (originRequest ["http://127.0.0.1:4000", "http://evil.example"]).headers.getAll
        connection = [] := by decide +kernel
    rw [hnone] at hvalue
    cases hvalue
  have hlength := (hforwards.origin hnamed).length_eq
  revert hlength
  decide +kernel

end CfIntegration.Mcp.AuthProxy
