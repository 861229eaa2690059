import CfIntegration.Mcp.Json

/-! # The two decoders of a response body

The client of the harness and the Locust file each decode a response body. Both take
the last event of an event stream whose data is JSON, but they split the stream into
lines in different ways.
-/

namespace CfIntegration.Mcp

open Text

namespace Protocol

/-- The characters that Rust counts as whitespace. -/
def isWhitespace (char : Char) : Bool :=
  ('\t' ≤ char && char ≤ '\r') || char ∈ [' ', '\u0085', '\u00a0', '\u1680', '\u2028', '\u2029',
    '\u202f', '\u205f', '\u3000'] || ('\u2000' ≤ char && char ≤ '\u200a')

def isEventStream (contentType : List Char) : Bool :=
  (trim isWhitespace (contentType.takeWhile (· ≠ ';'))).map Char.toLower ==
    "text/event-stream".toList

structure EventStream where
  message : Option Value
  eventData : List Char
  hasData : Bool

def flushSseEvent (parser : JsonParser) (stream : EventStream) : EventStream :=
  if stream.hasData then
    { message := (parser.parse stream.eventData).or stream.message, eventData := [],
      hasData := false }
  else stream

/-- The data of a line, if it is a data field. -/
def lineData (line : List Char) : Option (List Char) :=
  match stripPrefix "data:".toList line with
  | some value => some ((stripPrefix [' '] value).getD value)
  | none => if line = "data".toList then some [] else none

def readLine (parser : JsonParser) (stream : EventStream) (line : List Char) : EventStream :=
  if line = [] then flushSseEvent parser stream
  else
    match lineData line with
    | none => stream
    | some value =>
        { stream with
          eventData := (if stream.hasData then stream.eventData ++ ['\n'] else stream.eventData) ++
            value
          hasData := true }

/-- An empty body has no message; a body of another media type is one JSON text. -/
def parseMcpBody (parser : JsonParser) (body contentType : List Char) :
    Except String (Option Value) :=
  if body = [] then .ok none
  else if isEventStream contentType then
    .ok (flushSseEvent parser
      ((lines body).foldl (readLine parser) ⟨none, [], false⟩)).message
  else
    match parser.parse body with
    | some value => .ok (some value)
    | none => .error "malformed JSON"

end Protocol

namespace Locust

/-- The characters that Python counts as whitespace. -/
def isSpace (char : Char) : Bool :=
  Protocol.isWhitespace char || ('\x1c' ≤ char && char ≤ '\x1f')

def mediaType (contentType : List Char) : List Char :=
  (trim isSpace (contentType.takeWhile (· ≠ ';'))).map Char.toLower

/-- What stands before the first colon, whether there is one, and what follows it. -/
def partitionColon (line : List Char) : List Char × Bool × List Char :=
  match line.dropWhile (· ≠ ':') with
  | [] => (line, false, [])
  | _ :: value => (line.takeWhile (· ≠ ':'), true, value)

/-- The data of a line, if it is a data field. -/
def lineData (line : List Char) : Option (List Char) :=
  if [':'].isPrefixOf line then none
  else
    let (field, separator, value) := partitionColon line
    let value := if separator && [' '].isPrefixOf value then value.drop 1 else value
    if field = "data".toList then some value else none

def joinLines (dataLines : List (List Char)) : List Char := List.intercalate ['\n'] dataLines

def sseDataEvents (dataLines : List (List Char)) : List (List Char) → List (List Char)
  | [] => if dataLines = [] then [] else [joinLines dataLines]
  | line :: rest =>
      if line = [] then
        if dataLines = [] then sseDataEvents [] rest
        else joinLines dataLines :: sseDataEvents [] rest
      else
        match lineData line with
        | none => sseDataEvents dataLines rest
        | some value => sseDataEvents (dataLines ++ [value]) rest

/-- `None` stands for no message as well as for a JSON null. -/
def parseMcpBody (parser : JsonParser) (body contentType : List Char) : Except String Value :=
  if mediaType contentType = "text/event-stream".toList then
    .ok ((sseDataEvents [] (splitlines body)).foldl
      (fun message eventData => (parser.parse eventData).getD message) .null)
  else if mediaType contentType ≠ "application/json".toList then
    .error "unsupported MCP content type"
  else if body = [] then .ok .null
  else
    match parser.parse body with
    | some value => .ok value
    | none => .error "malformed JSON"

end Locust

/-- The data of the events without the whitespace around it; blank data is no message. -/
def trimmedEvents (events : List (List Char)) : List (List Char) :=
  (events.map (trim isJsonWhitespace)).filter (· ≠ [])

/-- The data of the events, each at its last place. -/
def distinctEvents (events : List (List Char)) : List (List Char) := (trimmedEvents events).dedup

/-- The lines that Rust and Python make of a body hold the same events. -/
def SameEvents (body : List Char) : Prop :=
  distinctEvents (Locust.sseDataEvents [] (lines body)) =
    distinctEvents (Locust.sseDataEvents [] (splitlines body))

instance (body : List Char) : Decidable (SameEvents body) := inferInstanceAs (Decidable (_ = _))

/-- Both decoders return the same message, or both report that there is none. -/
def Agrees (message : Except String (Option Value)) (value : Except String Value) : Prop :=
  ∃ decoded, message = .ok decoded ∧ value = .ok (decoded.getD .null)

section Decoders

variable (parser : JsonParser)

/-- The last accepted event is the same without repetitions. -/
theorem lastAccepted_distinctEvents (events : List (List Char)) :
    lastAccepted parser.parse (distinctEvents events) = lastAccepted parser.parse events := by
  rw [distinctEvents, lastAccepted_dedup]
  unfold lastAccepted trimmedEvents
  congr 1
  induction events with
  | nil => rfl
  | cons event rest ih =>
      rw [List.map_cons, List.filter_cons]
      split
      · rw [List.filterMap_cons, List.filterMap_cons, parser.trimmed, ih]
      next hblank =>
        have hblank : trim isJsonWhitespace event = [] := by simpa using hblank
        rw [ih, List.filterMap_cons_none]
        rw [← parser.trimmed, hblank, parser.empty]

/-- A data field without its name: one blank after the colon is left out. -/
theorem locust_lineData_field (rest : List Char) :
    Locust.lineData ("data:".toList ++ rest) =
      some ((stripPrefix [' '] rest).getD rest) := by
  have hpartition : Locust.partitionColon ("data:".toList ++ rest) =
      ("data".toList, true, rest) := rfl
  unfold Locust.lineData stripPrefix
  rw [if_neg (by simp), hpartition]
  simp only [Bool.true_and, if_true, List.length_singleton]
  split <;> rfl

/-- Both decoders read the same data off a line. -/
theorem lineData_eq (line : List Char) : Protocol.lineData line = Locust.lineData line := by
  unfold Protocol.lineData
  split
  next value hvalue => rw [stripPrefix_eq_some.mp hvalue, locust_lineData_field]
  next hnone =>
    have hfield : ∀ rest, line ≠ "data:".toList ++ rest := fun rest hline => by
      rw [stripPrefix_eq_some.mpr hline] at hnone
      cases hnone
    unfold Locust.lineData Locust.partitionColon
    have hsplit := List.takeWhile_append_dropWhile (p := (· ≠ ':')) (l := line)
    cases hdrop : line.dropWhile (· ≠ ':') with
    | nil =>
        have hplain : [':'].isPrefixOf line = false := by
          refine Bool.eq_false_iff.mpr fun hbegins => ?_
          obtain ⟨rest, rfl⟩ := List.isPrefixOf_iff_prefix.mp hbegins
          simp at hdrop
        rw [hplain]
        rfl
    | cons colon value =>
        have hcolon : colon = ':' := by
          have hhead := List.head?_dropWhile_not (· ≠ ':') line
          rw [hdrop, List.head?_cons] at hhead
          simpa using hhead
        rw [hdrop, hcolon] at hsplit
        have hdata : line ≠ "data".toList := by
          rintro rfl
          cases hdrop
        rw [if_neg hdata]
        split
        · rfl
        · simp only
          refine (if_neg fun hname => ?_).symm
          exact hfield value (by rw [← hsplit, hname]; rfl)

theorem joinLines_concat {dataLines : List (List Char)} (hne : dataLines ≠ []) (value : List Char) :
    Locust.joinLines (dataLines ++ [value]) = Locust.joinLines dataLines ++ '\n' :: value := by
  unfold Locust.joinLines
  induction dataLines with
  | nil => exact absurd rfl hne
  | cons first rest ih =>
      cases rest with
      | nil => simp [List.intercalate]
      | cons second others =>
          have htail := ih (List.cons_ne_nil _ _)
          rw [List.cons_append, List.cons_append, List.intercalate_cons_cons, ← List.cons_append,
            htail, List.intercalate_cons_cons]
          simp

/-- A blank line ends an event. -/
theorem sseDataEvents_blank (dataLines rest : List (List Char)) :
    Locust.sseDataEvents dataLines ([] :: rest) =
      Locust.sseDataEvents dataLines [] ++ Locust.sseDataEvents [] rest := by
  rw [Locust.sseDataEvents, Locust.sseDataEvents, if_pos rfl]
  split <;> rfl

theorem sseDataEvents_line (dataLines : List (List Char)) {line : List Char} (hline : line ≠ [])
    {rest : List (List Char)} : Locust.sseDataEvents dataLines (line :: rest) =
      match Locust.lineData line with
      | none => Locust.sseDataEvents dataLines rest
      | some value => Locust.sseDataEvents (dataLines ++ [value]) rest := by
  rw [Locust.sseDataEvents, if_neg hline]

theorem sseDataEvents_pending (dataLines : List (List Char)) (value : List Char) :
    Locust.sseDataEvents (dataLines ++ [value]) [] =
      [Locust.joinLines (dataLines ++ [value])] := if_neg (by simp)

/-- The client holds the data lines of the pending event. -/
structure Holds (stream : Protocol.EventStream) (dataLines : List (List Char)) : Prop where
  hasData : stream.hasData = true ↔ dataLines ≠ []
  eventData : stream.eventData = Locust.joinLines dataLines

/-- A flush reads the lines it holds, and nothing when there are none. -/
theorem flush_message {stream : Protocol.EventStream} {dataLines : List (List Char)}
    (hholds : Holds stream dataLines) :
    (Protocol.flushSseEvent parser stream).message =
      if dataLines = [] then stream.message
      else (parser.parse (Locust.joinLines dataLines)).or stream.message := by
  unfold Protocol.flushSseEvent
  by_cases hempty : dataLines = []
  · rw [if_neg (fun hdata => hholds.hasData.mp hdata hempty), if_pos hempty]
  · rw [if_pos (hholds.hasData.mpr hempty), if_neg hempty, hholds.eventData]

/-- After a flush no lines are held. -/
theorem holds_flush {stream : Protocol.EventStream} {dataLines : List (List Char)}
    (hholds : Holds stream dataLines) : Holds (Protocol.flushSseEvent parser stream) [] := by
  unfold Protocol.flushSseEvent
  split
  · exact ⟨by simp, rfl⟩
  next hdata =>
    have hempty : dataLines = [] := by
      by_contra hne
      exact hdata (hholds.hasData.mpr hne)
    exact hempty ▸ hholds

theorem holds_data {stream : Protocol.EventStream} {dataLines : List (List Char)}
    (hholds : Holds stream dataLines) (value : List Char) :
    Holds { stream with
      eventData := (if stream.hasData then stream.eventData ++ ['\n'] else stream.eventData) ++
        value
      hasData := true } (dataLines ++ [value]) := by
  refine ⟨by simp, ?_⟩
  simp only [hholds.eventData]
  by_cases hempty : dataLines = []
  · rw [if_neg fun hdata => hholds.hasData.mp hdata hempty, hempty]
    simp [Locust.joinLines]
  · rw [if_pos (hholds.hasData.mpr hempty), joinLines_concat hempty, List.append_assoc,
      List.singleton_append]

/-- The client ends with the last event that parses, after the message it had. -/
theorem foldl_readLine (text : List (List Char)) {stream : Protocol.EventStream}
    {dataLines : List (List Char)} (hholds : Holds stream dataLines) :
    (Protocol.flushSseEvent parser (text.foldl (Protocol.readLine parser) stream)).message =
      (lastAccepted parser.parse (Locust.sseDataEvents dataLines text)).or stream.message := by
  induction text generalizing stream dataLines with
  | nil =>
      rw [List.foldl_nil, flush_message parser hholds, Locust.sseDataEvents]
      split <;> simp [lastAccepted]
  | cons line rest ih =>
      rw [List.foldl_cons, Locust.sseDataEvents, Protocol.readLine]
      split
      · rw [ih (holds_flush parser hholds), flush_message parser hholds]
        split
        · rfl
        · rw [lastAccepted_cons, Option.or_assoc]
      · rw [lineData_eq]
        cases Locust.lineData line with
        | none => exact ih hholds
        | some value => exact ih (holds_data hholds value)

/-- The message of the client is the last event that parses. -/
theorem protocol_parseMcpBody {body contentType : List Char}
    (hstream : Protocol.isEventStream contentType) :
    Protocol.parseMcpBody parser body contentType =
      .ok (lastAccepted parser.parse (Locust.sseDataEvents [] (lines body))) := by
  unfold Protocol.parseMcpBody
  split
  next hempty =>
    subst hempty
    rfl
  next =>
    have hstart : Holds ⟨none, [], false⟩ [] := ⟨by simp, rfl⟩
    rw [foldl_readLine parser _ hstart, Option.or_none]

/-- The message of the Locust file is the last event that parses. -/
theorem locust_parseMcpBody {body contentType : List Char}
    (hstream : Locust.mediaType contentType = "text/event-stream".toList) :
    Locust.parseMcpBody parser body contentType =
      .ok ((lastAccepted parser.parse (Locust.sseDataEvents [] (splitlines body))).getD .null) := by
  have hfold : ∀ (events : List (List Char)) (message : Value),
      events.foldl (fun message eventData => (parser.parse eventData).getD message) message =
        (lastAccepted parser.parse events).getD message := by
    intro events
    induction events with
    | nil => exact fun _ => rfl
    | cons event rest ih =>
        intro message
        rw [List.foldl_cons, ih, lastAccepted_cons]
        cases lastAccepted parser.parse rest <;> simp
  unfold Locust.parseMcpBody
  rw [if_pos hstream, hfold]

end Decoders

theorem stripBlank_concat (value : List Char) :
    (stripPrefix [' '] (value ++ ['\r'])).getD (value ++ ['\r']) =
      (stripPrefix [' '] value).getD value ++ ['\r'] := by
  unfold stripPrefix
  cases value with
  | nil => rfl
  | cons char rest =>
      rw [List.cons_append, List.isPrefixOf_cons_cons, List.isPrefixOf_cons_cons]
      by_cases hblank : (' ' == char) = true
      · simp [hblank]
      · simp [hblank]

theorem lineData_concat (line : List Char) : Locust.lineData (line ++ ['\r']) =
    (stripPrefix "data:".toList line).map fun value =>
      (stripPrefix [' '] value).getD value ++ ['\r'] := by
  cases hbegins : stripPrefix "data:".toList line with
  | some value =>
      rw [stripPrefix_eq_some.mp hbegins, List.append_assoc, locust_lineData_field,
        stripBlank_concat, Option.map_some]
  | none =>
      have hlonger : stripPrefix "data:".toList (line ++ ['\r']) = none := by
        refine Option.eq_none_iff_forall_ne_some.mpr fun rest hrest => ?_
        have hline := stripPrefix_eq_some.mp hrest
        rcases List.eq_nil_or_concat rest with rfl | ⟨front, last, rfl⟩
        · have hlast := congrArg List.getLast? hline
          rw [List.getLast?_concat] at hlast
          cases hlast
        · rw [List.concat_eq_append, ← List.append_assoc] at hline
          have hfront := (List.append_inj' hline rfl).1
          rw [stripPrefix_eq_some.mpr hfront] at hbegins
          cases hbegins
      have hname : line ++ ['\r'] ≠ "data".toList := fun hline => by
        have hlast := congrArg List.getLast? hline
        rw [List.getLast?_concat] at hlast
        cases hlast
      rw [← lineData_eq, Protocol.lineData, hlonger, Option.map_none]
      exact if_neg hname

theorem trimmedEvents_append (first second : List (List Char)) :
    trimmedEvents (first ++ second) = trimmedEvents first ++ trimmedEvents second := by
  simp [trimmedEvents]

/-- Whitespace after the data of an event does not count. -/
theorem trimmedEvents_concat {char : Char} (hspace : isJsonWhitespace char = true)
    (event : List Char) : trimmedEvents [event ++ [char]] = trimmedEvents [event] := by
  simp only [trimmedEvents, List.map_singleton, trim_concat hspace]

theorem joinLines_return (dataLines : List (List Char)) (value : List Char) :
    Locust.joinLines (dataLines ++ [value ++ ['\r']]) =
      Locust.joinLines (dataLines ++ [value]) ++ ['\r'] := by
  by_cases hempty : dataLines = []
  · simp [hempty, Locust.joinLines]
  · rw [joinLines_concat hempty, joinLines_concat hempty, List.append_assoc, List.cons_append]

/-- A last line without data leaves at most an empty line after the pending data. -/
theorem trimmedEvents_lastLine (dataLines : List (List Char)) {last : List Char}
    (hbegins : stripPrefix "data:".toList last = none) :
    trimmedEvents (Locust.sseDataEvents dataLines [last]) =
      trimmedEvents (Locust.sseDataEvents dataLines []) := by
  by_cases hblank : last = []
  · rw [hblank, sseDataEvents_blank, trimmedEvents_append]
    exact List.append_nil _
  · rw [sseDataEvents_line _ hblank, ← lineData_eq, Protocol.lineData, hbegins]
    by_cases hname : last = "data".toList
    · simp only [hname, if_true]
      rw [sseDataEvents_pending]
      by_cases hempty : dataLines = []
      · rw [hempty]
        rfl
      · rw [joinLines_concat hempty, trimmedEvents_concat (by rfl), Locust.sseDataEvents,
          if_neg hempty]
    · simp only [hname, if_false]

/-- A carriage return at the end of the last line does not change the events. -/
theorem trimmedEvents_return (dataLines front : List (List Char)) (last : List Char) :
    trimmedEvents (Locust.sseDataEvents dataLines (front ++ [last ++ ['\r']])) =
      trimmedEvents (Locust.sseDataEvents dataLines (front ++ [last])) := by
  induction front generalizing dataLines with
  | nil =>
      rw [List.nil_append, List.nil_append, sseDataEvents_line _ (by simp), lineData_concat]
      cases hbegins : stripPrefix "data:".toList last with
      | none => exact (trimmedEvents_lastLine dataLines hbegins).symm
      | some value =>
          rw [stripPrefix_eq_some.mp hbegins, sseDataEvents_line _ (by simp),
            locust_lineData_field]
          simp only [Option.map_some, sseDataEvents_pending]
          rw [joinLines_return, trimmedEvents_concat (by rfl)]
  | cons line rest ih =>
      rw [List.cons_append, List.cons_append]
      by_cases hblank : line = []
      · rw [hblank, sseDataEvents_blank, sseDataEvents_blank, trimmedEvents_append,
          trimmedEvents_append, ih []]
      · rw [sseDataEvents_line _ hblank, sseDataEvents_line _ hblank]
        cases Locust.lineData line with
        | none => exact ih dataLines
        | some value => exact ih (dataLines ++ [value])

/-- The decoders see the same events of a body with the common line boundaries only. -/
theorem sameEvents_of_common {body : List Char} (hcommon : CommonBoundaries body) :
    SameEvents body := by
  unfold SameEvents distinctEvents
  rcases sameLines_of_common hcommon with hlines | ⟨front, last, hlines, hsplit⟩
  · rw [hlines]
  · rw [hlines, hsplit, trimmedEvents_return]

/-- A parser that accepts the chosen texts as strings. -/
def choosingParser (chosen : List Char → Bool) : JsonParser where
  parse text :=
    let text := trim isJsonWhitespace text
    if text ≠ [] ∧ chosen text then some (.string (String.ofList text)) else none
  trimmed text := by simp only [trim_trim]
  empty := rfl

theorem lastAccepted_choosingParser (chosen : List Char → Bool) (events : List (List Char)) :
    lastAccepted (choosingParser chosen).parse (distinctEvents events) =
      ((distinctEvents events).filter chosen).getLast?.map fun text =>
        .string (String.ofList text) := by
  have hevents : ∀ text ∈ distinctEvents events, (choosingParser chosen).parse text =
      if chosen text then some (.string (String.ofList text)) else none := by
    intro text htext
    rw [distinctEvents, List.mem_dedup, trimmedEvents, List.mem_filter, List.mem_map] at htext
    obtain ⟨⟨event, -, rfl⟩, hne⟩ := htext
    simp only [choosingParser, trim_trim]
    simp only [decide_eq_true_eq] at hne
    simp [hne]
  rw [lastAccepted, List.filterMap_congr hevents, ← List.getLast?_map]
  congr 1
  induction distinctEvents events with
  | nil => rfl
  | cons text rest ih =>
      rw [List.filterMap_cons, List.filter_cons]
      split <;> simp_all

theorem text_injective {first second : Option (List Char)}
    (htext : (first.map fun text => Value.string (String.ofList text)).getD .null =
      (second.map fun text => Value.string (String.ofList text)).getD .null) : first = second := by
  rcases first with _ | first <;> rcases second with _ | second
  · rfl
  · cases htext
  · cases htext
  · have hstring : String.ofList first = String.ofList second := by simpa using htext
    simpa using congrArg String.toList hstring

/-- Both decoders agree on a body under every JSON parser exactly when the lines that
they split it into hold the same events. -/
theorem parseMcpBody_agrees_iff (body contentType : List Char)
    (hprotocol : Protocol.isEventStream contentType)
    (hlocust : Locust.mediaType contentType = "text/event-stream".toList) :
    (∀ parser : JsonParser, Agrees (Protocol.parseMcpBody parser body contentType)
      (Locust.parseMcpBody parser body contentType)) ↔ SameEvents body := by
  simp only [protocol_parseMcpBody _ hprotocol, locust_parseMcpBody _ hlocust]
  constructor
  · intro hagrees
    refine eq_of_getLast?_filter (List.nodup_dedup _) (List.nodup_dedup _) fun chosen => ?_
    obtain ⟨decoded, hrust, hpython⟩ := hagrees (choosingParser chosen)
    cases hrust
    rw [← lastAccepted_distinctEvents _ (Locust.sseDataEvents [] (lines body)),
      ← lastAccepted_distinctEvents _ (Locust.sseDataEvents [] (splitlines body)),
      lastAccepted_choosingParser, lastAccepted_choosingParser, Except.ok.injEq] at hpython
    exact (text_injective hpython).symm
  · intro hsame parser
    refine ⟨_, rfl, ?_⟩
    rw [← lastAccepted_distinctEvents parser (Locust.sseDataEvents [] (splitlines body)), ← hsame,
      lastAccepted_distinctEvents]

/-- An event whose lines end in a carriage return and a line feed. -/
theorem parseMcpBody_agrees_crlf :
    Protocol.isEventStream " Text/Event-Stream; charset=utf-8 ".toList ∧
      ∀ parser : JsonParser, Agrees
        (Protocol.parseMcpBody parser "event: message\r\ndata: {}\r\n\r\n".toList
          " Text/Event-Stream; charset=utf-8 ".toList)
        (Locust.parseMcpBody parser "event: message\r\ndata: {}\r\n\r\n".toList
          " Text/Event-Stream; charset=utf-8 ".toList) :=
  ⟨by decide, (parseMcpBody_agrees_iff _ _ (by decide) (by decide)).mpr (by decide)⟩

/-- A parser on the data that the decoders make of a string with a line separator. -/
def lineSeparatorParser : JsonParser where
  parse text :=
    if trim isJsonWhitespace text = "\"a\u2028b\"".toList then some (.string "a\u2028b") else none
  trimmed text := by simp only [trim_trim]
  empty := by decide

/-- A line separator may stand in a JSON string; Python ends the line there. -/
theorem parseMcpBody_disagrees_lineSeparator :
    ¬ Agrees
      (Protocol.parseMcpBody lineSeparatorParser "data: \"a\u2028b\"\n\n".toList
        "text/event-stream".toList)
      (Locust.parseMcpBody lineSeparatorParser "data: \"a\u2028b\"\n\n".toList
        "text/event-stream".toList) := by
  rintro ⟨decoded, hprotocol, hlocust⟩
  have hmessage : Protocol.parseMcpBody lineSeparatorParser "data: \"a\u2028b\"\n\n".toList
      "text/event-stream".toList = .ok (some (.string "a\u2028b")) := by rfl
  have hnone : Locust.parseMcpBody lineSeparatorParser "data: \"a\u2028b\"\n\n".toList
      "text/event-stream".toList = .ok .null := by rfl
  rw [hmessage] at hprotocol
  cases hprotocol
  rw [hnone] at hlocust
  cases hlocust

end CfIntegration.Mcp
