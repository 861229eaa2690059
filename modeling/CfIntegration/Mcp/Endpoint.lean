import CfIntegration.Foundation.Fallible
import CfIntegration.Foundation.Text
import CfIntegration.Foundation.Url

/-! # Endpoints of the gateway

The client of the gateway and the probe each derive the address of the MCP route
from the base URL, the topology and the server ID. Whether the backend identity is
checked is read off the shape of the path.
-/

namespace CfIntegration.Mcp

open scoped Text

inductive GatewayTopology where
  /-- `/mcp` routes directly to the control plane. -/
  | direct
  /-- `/servers/{id}/mcp` routes through the dataplane. -/
  | dataplane
  deriving DecidableEq, Repr

def GatewayTopology.requiresDataplane : GatewayTopology → Bool
  | .direct => false
  | .dataplane => true

structure GatewayError where
  mode : GatewayTopology
  message : String
  deriving DecidableEq, Repr

/-- The path of the MCP route after a base path. -/
def routePath (set : SegmentSet) (mode : GatewayTopology) (serverId base : List Char) : List Char :=
  let path :=
    if mode.requiresDataplane then
      pushSegment set (pushSegment set base "servers".toList) serverId
    else base
  pushSegment set path "mcp".toList

section Endpoint

variable (parser : UrlParser) (sets : String → SegmentSet)

def gatewayEndpoint (mode : GatewayTopology) (baseUrl serverId : List Char) :
    Except GatewayError Url := do
  bailIf (serverId = []) ⟨mode, "server ID must not be empty"⟩
  let endpoint ← okOr (parser.parse baseUrl) ⟨mode, "base URL is invalid"⟩
  bailIf (endpoint.cannotBeABase ∨ ¬ endpoint.hasHost)
    ⟨mode, "base URL must be an absolute hierarchical HTTP URL"⟩
  bailIf (endpoint.scheme ≠ "http" ∧ endpoint.scheme ≠ "https")
    ⟨mode, "base URL scheme must be http or https"⟩
  bailIf (endpoint.username ≠ "" ∨ endpoint.password.isSome)
    ⟨mode, "base URL must not contain credentials"⟩
  return { endpoint with
    path := routePath (sets endpoint.scheme) mode serverId (endpoint.path.take 1)
    query := none
    fragment := none }

def probeUrl (baseUrl : List Char) (mode : GatewayTopology) (serverId : List Char) :
    Except String (List Char) := do
  let url ← okOr (parser.parse baseUrl) "invalid probe base URL"
  bailIf (url.cannotBeABase) "probe base URL must be hierarchical"
  let url := { url with
    path := routePath (sets url.scheme) mode serverId (popIfEmpty url.path)
    query := none
    fragment := none }
  return url.asStr

end Endpoint

/-- The transport of the probe refuses every request to another address than its own. -/
def acceptsProbeRequest (endpoint : Url) (url : List Char) : Bool := url == endpoint.asStr

def isDataplaneEndpoint (endpoint : Url) : Bool :=
  match endpoint.pathSegments with
  | some [servers, serverId, mcp] =>
      servers == "servers".toList && !serverId.isEmpty && mcp == "mcp".toList
  | _ => false

theorem plain_servers : PlainSegment "servers".toList := ⟨by decide, by decide, by decide⟩

theorem plain_mcp : PlainSegment "mcp".toList := ⟨by decide, by decide, by decide⟩

theorem push_servers (set : SegmentSet) (path : List Char) :
    pushSegment set path "servers".toList = startSegment path ++ "servers".toList :=
  pushSegment_of_isAlphanum set path plain_servers (by decide)

theorem push_mcp (set : SegmentSet) (path : List Char) :
    pushSegment set path "mcp".toList = startSegment path ++ "mcp".toList :=
  pushSegment_of_isAlphanum set path plain_mcp (by decide)

theorem startSegment_of_append {path tail : List Char} (hpath : path ≠ []) (htail : tail ≠ []) :
    startSegment (path ++ tail) = path ++ tail ++ ['/'] := by
  refine if_neg fun hlength => ?_
  have hpath := List.length_pos_of_ne_nil hpath
  have htail := List.length_pos_of_ne_nil htail
  rw [List.length_append] at hlength
  omega

/-- Directly, the route is the base path with `mcp` behind it. -/
theorem routePath_direct (set : SegmentSet) (serverId base : List Char) :
    routePath set .direct serverId base = startSegment base ++ "mcp".toList := push_mcp set base

/-- The ID as a path reads it. -/
def encodedId (set : SegmentSet) (serverId : List Char) : List Char :=
  percentEncode set (serverId.filter fun char => !isTabOrNewline char)

/-- Popping takes the last segment off again. -/
theorem shortenPath_servers (front : List Char) :
    shortenPath (front ++ ['/'] ++ "servers".toList ++ ['/']) = front ++ ['/'] := by
  have hlast : (front ++ ['/'] ++ "servers".toList).rtakeWhile (· ≠ '/') = "servers".toList := by
    simp [List.rtakeWhile]
  have hfront : (front ++ ['/'] ++ "servers".toList).rdropWhile (· ≠ '/') = front ++ ['/'] := by
    simp [List.rdropWhile]
  unfold shortenPath
  rw [List.dropLast_concat, hlast, hfront, if_pos]
  exact ⟨by simp, by decide⟩

/-- The path of the dataplane route, by what the ID reads as: skipped dots, double dots,
a single dot, or a segment. -/
theorem routePath_dataplane (set : SegmentSet) (serverId : List Char) {base : List Char}
    (hbase : ∃ rest, base = '/' :: rest) :
    routePath set .dataplane serverId base =
      if serverId = ".".toList ∨ serverId = "..".toList then
        startSegment base ++ "servers/mcp".toList
      else if isDoubleDot (encodedId set serverId) then
        startSegment (startSegment base) ++ "mcp".toList
      else if isSingleDot (encodedId set serverId) then startSegment base ++ "servers//mcp".toList
      else startSegment base ++ ("servers/".toList ++ encodedId set serverId ++ "/mcp".toList) := by
  obtain ⟨front, hfront⟩ : ∃ front, startSegment base = front ++ ['/'] := by
    unfold startSegment
    split
    next hlength =>
      obtain ⟨rest, rfl⟩ := hbase
      obtain rfl : rest = [] := List.length_eq_zero_iff.mp (by simpa using hlength)
      exact ⟨[], rfl⟩
    next => exact ⟨base, rfl⟩
  have hservers : startSegment (startSegment base ++ "servers".toList) =
      startSegment base ++ "servers".toList ++ ['/'] :=
    startSegment_of_append (startSegment_ne_nil base) (by decide)
  simp only [routePath, GatewayTopology.requiresDataplane, if_true]
  rw [push_servers, push_mcp, pushSegment]
  change startSegment (if _ then _ else if isDoubleDot (encodedId set serverId) = true then _
    else if isSingleDot (encodedId set serverId) = true then _ else _) ++ _ = _
  rw [hservers]
  split
  · rw [hservers]
    simp
  split
  · rw [hfront, shortenPath_servers]
  split
  · rw [List.append_assoc, startSegment_of_append (startSegment_ne_nil base) (by simp)]
    simp
  · rw [List.append_assoc, List.append_assoc, List.append_assoc,
      startSegment_of_append (startSegment_ne_nil base) (by simp)]
    simp [encodedId]

/-- The route ends the same way after every base path. -/
theorem routePath_tail (set : SegmentSet) (mode : GatewayTopology) (serverId : List Char) :
    (∃ tail, ∀ base, (∃ rest, base = '/' :: rest) →
      routePath set mode serverId base = startSegment base ++ tail) ∨
    ∀ base, (∃ rest, base = '/' :: rest) →
      routePath set mode serverId base = startSegment (startSegment base) ++ "mcp".toList := by
  cases mode with
  | direct => exact .inl ⟨_, fun base _ => routePath_direct set serverId base⟩
  | dataplane =>
      by_cases hdots : serverId = ".".toList ∨ serverId = "..".toList
      · exact .inl ⟨_, fun base hbase => by
          rw [routePath_dataplane set serverId hbase, if_pos hdots]⟩
      by_cases hdouble : isDoubleDot (encodedId set serverId)
      · exact .inr fun base hbase => by
          rw [routePath_dataplane set serverId hbase, if_neg hdots, if_pos hdouble]
      by_cases hsingle : isSingleDot (encodedId set serverId)
      · exact .inl ⟨_, fun base hbase => by
          rw [routePath_dataplane set serverId hbase, if_neg hdots, if_neg hdouble, if_pos hsingle]⟩
      · exact .inl ⟨_, fun base hbase => by
          rw [routePath_dataplane set serverId hbase, if_neg hdots, if_neg hdouble,
            if_neg hsingle]⟩

theorem length_startSegment {base : List Char} (hlong : 1 < base.length) :
    (startSegment base).length = base.length + 1 := by
  rw [startSegment, if_neg (by omega), List.length_append, List.length_singleton]

/-- Only the root leads to the route below the root. -/
theorem routePath_eq_root (set : SegmentSet) (mode : GatewayTopology) (serverId : List Char)
    {base : List Char} (hbase : ∃ rest, base = '/' :: rest) :
    routePath set mode serverId base = routePath set mode serverId ['/'] ↔ base = ['/'] := by
  refine ⟨fun hroute => ?_, fun hroot => by rw [hroot]⟩
  by_contra hother
  have hlong : 1 < base.length := by
    obtain ⟨rest, rfl⟩ := hbase
    have hrest : rest ≠ [] := fun hempty => hother (by rw [hempty])
    have hpos := List.length_pos_of_ne_nil hrest
    simp only [List.length_cons]
    omega
  have hroot : startSegment ['/'] = ['/'] := rfl
  have hstart := length_startSegment hlong
  rcases routePath_tail set mode serverId with ⟨tail, htail⟩ | hparent
  · rw [htail base hbase, htail _ ⟨[], rfl⟩, hroot] at hroute
    have hlength := congrArg List.length hroute
    simp only [List.length_append, List.length_singleton] at hlength
    omega
  · rw [hparent base hbase, hparent _ ⟨[], rfl⟩, hroot, hroot] at hroute
    have hlength := congrArg List.length hroute
    have hagain := @length_startSegment (startSegment base) (by omega)
    simp only [List.length_append, List.length_singleton] at hlength
    omega

section Addresses

variable {parser : UrlParser} {sets : String → SegmentSet} {mode : GatewayTopology}
  {baseUrl serverId : List Char}

/-- What the gateway client accepts, and the endpoint it makes of it. -/
theorem gatewayEndpoint_ok {endpoint : Url}
    (haccepted : gatewayEndpoint parser sets mode baseUrl serverId = .ok endpoint) :
    serverId ≠ [] ∧ ∃ url rest, parser.parse baseUrl = some url ∧ url.path = '/' :: rest ∧
      url.cannotBeABase = false ∧ endpoint = { url with
        path := routePath (sets url.scheme) mode serverId ['/']
        query := none
        fragment := none } := by
  unfold gatewayEndpoint at haccepted
  obtain ⟨_, hserver, haccepted⟩ := except_bind_eq_ok.mp haccepted
  rw [bailIf_eq_ok] at hserver
  obtain ⟨url, hurl, haccepted⟩ := except_bind_eq_ok.mp haccepted
  obtain ⟨_, hhost, haccepted⟩ := except_bind_eq_ok.mp haccepted
  obtain ⟨_, hscheme, haccepted⟩ := except_bind_eq_ok.mp haccepted
  obtain ⟨_, -, haccepted⟩ := except_bind_eq_ok.mp haccepted
  rw [bailIf_eq_ok, not_or] at hhost
  rw [bailIf_eq_ok] at hscheme
  have hparse := okOr_eq_ok.mp hurl
  have hspecial : url.scheme = "http" ∨ url.scheme = "https" := by
    by_contra hother
    exact hscheme (not_or.mp hother)
  obtain ⟨rest, hrest⟩ := parser.rooted baseUrl url hparse hspecial
  refine ⟨hserver, url, rest, hparse, hrest, Bool.eq_false_iff.mpr hhost.1, ?_⟩
  cases haccepted
  rw [hrest]
  rfl

theorem popIfEmpty_eq_root {path rest : List Char} (hpath : path = '/' :: rest) :
    popIfEmpty path = ['/'] ↔ path = ['/'] ∨ path = ['/', '/'] := by
  subst hpath
  rcases List.eq_nil_or_concat rest with rfl | ⟨front, last, rfl⟩
  · simp [popIfEmpty]
  · simp only [popIfEmpty, List.concat_eq_append, ← List.cons_append, List.dropLast_concat,
      List.getLast?_concat, Option.some.injEq]
    rw [if_neg (by simp)]
    split
    next hlast => simp [hlast]
    next hlast =>
      have hother : front ++ [last] ≠ ['/'] := fun hsame => by
        have hend := congrArg List.getLast? hsame
        rw [List.getLast?_concat] at hend
        exact hlast (Option.some.inj hend)
      simpa using hother

theorem exists_popIfEmpty {path rest : List Char} (hpath : path = '/' :: rest) :
    ∃ rest, popIfEmpty path = '/' :: rest := by
  subst hpath
  unfold popIfEmpty
  split
  · exact ⟨_, rfl⟩
  next hlength =>
    split
    · cases rest with
      | nil => exact absurd (by simp) hlength
      | cons char others => exact ⟨_, List.dropLast_cons_cons⟩
    · exact ⟨_, rfl⟩

/-- The probe addresses the endpoint of the gateway client exactly when the base URL has
no path of its own. -/
theorem probeUrl_accepted_iff {endpoint : Url}
    (haccepted : gatewayEndpoint parser sets mode baseUrl serverId = .ok endpoint) :
    (∃ url, probeUrl parser sets baseUrl mode serverId = .ok url ∧
      acceptsProbeRequest endpoint url = true) ↔
    ∃ url, parser.parse baseUrl = some url ∧ (url.path = ['/'] ∨ url.path = ['/', '/']) := by
  obtain ⟨-, url, rest, hparse, hpath, hbase, rfl⟩ := gatewayEndpoint_ok haccepted
  have hprobe : probeUrl parser sets baseUrl mode serverId = .ok (url.before ++
      routePath (sets url.scheme) mode serverId (popIfEmpty url.path)) := by
    simp [probeUrl, hparse, hbase, okOr, Url.asStr, bind, Except.bind, pure, Except.pure]
  have hroute := routePath_eq_root (sets url.scheme) mode serverId (exists_popIfEmpty hpath)
  rw [popIfEmpty_eq_root hpath] at hroute
  constructor
  · rintro ⟨address, haddress, haccepts⟩
    rw [hprobe, Except.ok.injEq] at haddress
    refine ⟨url, hparse, hroute.mp ?_⟩
    simpa [← haddress, acceptsProbeRequest, Url.asStr] using haccepts
  · rintro ⟨base, hsame, hroot⟩
    obtain rfl : url = base := by simpa [hparse] using hsame
    exact ⟨_, hprobe, by simp [acceptsProbeRequest, Url.asStr, hroute.mpr hroot]⟩

/-- The endpoint names the server, and its responses have their backend identity checked. -/
structure Addresses (serverId : List Char) (endpoint : Url) : Prop where
  segments : ∃ segment,
    endpoint.pathSegments = some ["servers".toList, segment, "mcp".toList] ∧
      percentDecode segment = utf8 serverId
  identified : isDataplaneEndpoint endpoint = true

theorem splitOn_servers {segment : List Char} (hsegment : '/' ∉ segment) :
    ("servers/".toList ++ segment ++ "/mcp".toList).splitOn '/' =
      ["servers".toList, segment, "mcp".toList] := by
  have hjoin : "servers/".toList ++ segment ++ "/mcp".toList =
      List.intercalate ['/'] ["servers".toList, segment, "mcp".toList] := by
    simp [List.intercalate]
  rw [hjoin, List.splitOn_intercalate]
  · simp only [List.forall_mem_cons]
    exact ⟨by decide, hsegment, by decide, nofun⟩
  · exact List.cons_ne_nil _ _

/-- Three segments with an identifier in the middle are a dataplane endpoint. -/
theorem isDataplaneEndpoint_of_segments {endpoint : Url} {segment : List Char}
    (hsegments : endpoint.pathSegments = some ["servers".toList, segment, "mcp".toList])
    (hsegment : segment ≠ []) : isDataplaneEndpoint endpoint = true := by
  unfold isDataplaneEndpoint
  rw [hsegments]
  simpa using hsegment

/-- A plain ID stands between the other segments as it is, but for its encoding. -/
theorem routePath_of_plain (set : SegmentSet) (hne : serverId ≠ [])
    (hplain : PlainSegment serverId) :
    routePath set .dataplane serverId ['/'] =
      '/' :: ("servers/".toList ++ percentEncode set serverId ++ "/mcp".toList) := by
  have hservers : startSegment ("/servers".toList) = "/servers/".toList := rfl
  have hpush : pushSegment set ['/'] "servers".toList = "/servers".toList := push_servers set ['/']
  simp only [routePath, GatewayTopology.requiresDataplane, if_true]
  rw [hpush, pushSegment_of_plain set _ hplain, push_mcp, hservers,
    startSegment_of_append (by decide) (percentEncode_ne_nil set hne)]
  simp

/-- A plain identifier is addressed by its endpoint. -/
theorem addresses_of_plain {endpoint : Url}
    (haccepted : gatewayEndpoint parser sets .dataplane baseUrl serverId = .ok endpoint)
    (hplain : PlainSegment serverId) : Addresses serverId endpoint := by
  obtain ⟨hne, url, rest, -, -, -, rfl⟩ := gatewayEndpoint_ok haccepted
  rw [routePath_of_plain _ hne hplain]
  have hsplit := splitOn_servers (slash_notMem_percentEncode (sets url.scheme) serverId)
  refine ⟨⟨_, congrArg some hsplit, percentDecode_percentEncode _ _⟩, ?_⟩
  exact isDataplaneEndpoint_of_segments (congrArg some hsplit) (percentEncode_ne_nil _ hne)

/-- Only a plain identifier is addressed by its endpoint. -/
theorem plain_of_addresses {endpoint : Url}
    (haccepted : gatewayEndpoint parser sets .dataplane baseUrl serverId = .ok endpoint)
    (haddresses : Addresses serverId endpoint) : PlainSegment serverId := by
  obtain ⟨hne, url, rest, -, -, -, rfl⟩ := gatewayEndpoint_ok haccepted
  obtain ⟨⟨segment, hsegments, hdecode⟩, hidentified⟩ := haddresses
  have hroot : startSegment ['/'] = ['/'] := rfl
  rw [routePath_dataplane _ _ ⟨[], rfl⟩, hroot] at hsegments hidentified
  split at hsegments
  · cases hsegments
  next hdots =>
    rw [if_neg hdots] at hidentified
    split at hsegments
    · cases hsegments
    next hdouble =>
      rw [if_neg hdouble] at hidentified
      split at hsegments
      next hsingle =>
        rw [if_pos hsingle] at hidentified
        cases hidentified
      next =>
        have hsplit := splitOn_servers
          (slash_notMem_percentEncode (sets url.scheme)
            (serverId.filter fun char => !isTabOrNewline char))
        have hsame := (congrArg some hsplit).symm.trans hsegments
        simp only [Option.some.injEq, List.cons.injEq, and_true, true_and] at hsame
        rw [← hsame, percentDecode_percentEncode] at hdecode
        have hkept := List.filter_eq_self.mp (utf8_injective hdecode)
        rw [not_or] at hdots
        exact ⟨hdots.1, hdots.2, fun char hchar => by simpa using hkept char hchar⟩

/-- Two accepted IDs are addressed faithfully exactly when both are plain. -/
theorem gatewayEndpoint_faithful_iff {otherId : List Char} {endpoint other : Url}
    (haccepted : gatewayEndpoint parser sets .dataplane baseUrl serverId = .ok endpoint)
    (hother : gatewayEndpoint parser sets .dataplane baseUrl otherId = .ok other) :
    (Addresses serverId endpoint ∧ Addresses otherId other ∧
      (serverId ≠ otherId → endpoint.asStr ≠ other.asStr)) ↔
    PlainSegment serverId ∧ PlainSegment otherId := by
  constructor
  · rintro ⟨hfirst, hsecond, -⟩
    exact ⟨plain_of_addresses haccepted hfirst, plain_of_addresses hother hsecond⟩
  · rintro ⟨hfirst, hsecond⟩
    refine ⟨addresses_of_plain haccepted hfirst, addresses_of_plain hother hsecond,
      fun hdistinct hsame => hdistinct ?_⟩
    obtain ⟨hne, url, rest, hparse, -, -, rfl⟩ := gatewayEndpoint_ok haccepted
    obtain ⟨hotherNe, base, _, hbase, -, -, rfl⟩ := gatewayEndpoint_ok hother
    obtain rfl : url = base := by simpa [hparse] using hbase
    simp only [Url.asStr, Option.elim_none, List.append_nil, List.append_cancel_left_eq,
      routePath_of_plain _ hne hfirst, routePath_of_plain _ hotherNe hsecond, List.cons.injEq,
      true_and, List.append_assoc, List.append_cancel_right_eq] at hsame
    have hdecode := congrArg percentDecode hsame
    rw [percentDecode_percentEncode, percentDecode_percentEncode] at hdecode
    exact utf8_injective hdecode

end Addresses

/-- The characters that are encoded in a path segment of an HTTP URL. -/
def specialPathSegment : SegmentSet where
  encodes char := char.toNat ≤ 0x20 || char.toNat ∈
    [0x22, 0x23, 0x25, 0x2f, 0x3c, 0x3e, 0x3f, 0x5c, 0x60, 0x7b, 0x7d, 0x7f]
  percent := by rfl
  slash := by rfl
  dot := by rfl
  alphanumeric char hchar := by
    have hcode := Text.isAlphanum_code hchar
    simp only [List.mem_cons, List.not_mem_nil, or_false, Bool.or_eq_false_iff,
      decide_eq_false_iff_not]
    omega

def loopback : List Char := "http://127.0.0.1:8080".toList

/-- A parser of the addresses of one host. -/
def loopbackParser : UrlParser where
  parse text :=
    if loopback.isPrefixOf text ∧ (text.drop loopback.length).head? = some '/' then
      some {
        before := loopback
        scheme := "http"
        username := ""
        password := none
        hasHost := true
        cannotBeABase := false
        path := text.drop loopback.length
        query := none
        fragment := none }
    else none
  rooted text url hparse _ := by
    split at hparse
    next hbegins =>
      cases hparse
      exact ⟨_, (List.head?_eq_some_iff.mp hbegins.2).choose_spec⟩
    next => cases hparse

theorem probeUrl_accepted_root :
    ∃ endpoint, gatewayEndpoint loopbackParser (fun _ => specialPathSegment) .dataplane
        "http://127.0.0.1:8080/".toList "tenant/a b".toList = .ok endpoint ∧
      ∃ url, probeUrl loopbackParser (fun _ => specialPathSegment) "http://127.0.0.1:8080/".toList
        .dataplane "tenant/a b".toList = .ok url ∧ acceptsProbeRequest endpoint url = true :=
  ⟨_, rfl, (probeUrl_accepted_iff rfl).mpr ⟨_, rfl, .inl rfl⟩⟩

/-- The probe keeps a path that the gateway client leaves out. -/
theorem probeUrl_refused_prefix :
    ∃ endpoint, gatewayEndpoint loopbackParser (fun _ => specialPathSegment) .direct
        "http://127.0.0.1:8080/gateway".toList "server-123".toList = .ok endpoint ∧
      ¬ ∃ url, probeUrl loopbackParser (fun _ => specialPathSegment)
        "http://127.0.0.1:8080/gateway".toList .direct "server-123".toList = .ok url ∧
          acceptsProbeRequest endpoint url = true := by
  refine ⟨_, rfl, ?_⟩
  rintro ⟨url, hurl, haccepts⟩
  cases hurl
  exact absurd haccepts (by decide)

theorem gatewayEndpoint_faithful_names :
    ∃ endpoint other,
      gatewayEndpoint loopbackParser (fun _ => specialPathSegment) .dataplane
        "http://127.0.0.1:8080/".toList "a/b".toList = .ok endpoint ∧
      gatewayEndpoint loopbackParser (fun _ => specialPathSegment) .dataplane
        "http://127.0.0.1:8080/".toList "a%2Fb".toList = .ok other ∧
      Addresses "a/b".toList endpoint ∧ Addresses "a%2Fb".toList other ∧
      ("a/b".toList ≠ "a%2Fb".toList → endpoint.asStr ≠ other.asStr) :=
  ⟨_, _, rfl, rfl, (@gatewayEndpoint_faithful_iff loopbackParser (fun _ => specialPathSegment)
    "http://127.0.0.1:8080/".toList "a/b".toList "a%2Fb".toList _ _ rfl rfl).mpr
    ⟨⟨by decide, by decide, by decide⟩, ⟨by decide, by decide, by decide⟩⟩⟩

/-- A dot is skipped, and the address is not taken for a dataplane route. -/
theorem gatewayEndpoint_skips_dot :
    ∃ endpoint, gatewayEndpoint loopbackParser (fun _ => specialPathSegment) .dataplane
        "http://127.0.0.1:8080/".toList ".".toList = .ok endpoint ∧
      isDataplaneEndpoint endpoint = false ∧ ¬ Addresses ".".toList endpoint := by
  refine ⟨_, rfl, by decide, ?_⟩
  rintro ⟨-, hidentified⟩
  exact absurd hidentified (by decide)

end CfIntegration.Mcp
