import CfIntegration.Mcp.EventStream

/-! # The grammar of an event stream

A body is made of lines that a line feed ends, with or without a carriage return before
it. The lines between two blank ones are an event, and its data are the values of its
data fields. The client reads the last event whose data is JSON.
-/

namespace CfIntegration.Mcp.Protocol

open Text

inductive Terminator where
  | lineFeed
  | carriageReturn
  deriving DecidableEq, Repr

def Terminator.text : Terminator → List Char
  | .lineFeed => ['\n']
  | .carriageReturn => ['\r', '\n']

/-- Lines as they are ended, and what stands after the last terminator. -/
structure EventBody where
  ended : List (List Char × Terminator)
  last : List Char

namespace EventBody

def text (body : EventBody) : List Char :=
  body.ended.flatMap (fun line => line.1 ++ line.2.text) ++ body.last

def lines (body : EventBody) : List (List Char) :=
  body.ended.map Prod.fst ++ if body.last = [] then [] else [body.last]

/-- No line holds a character that ends one. -/
def Clean (body : EventBody) : Prop :=
  ∀ line ∈ body.lines, '\n' ∉ line ∧ '\r' ∉ line

theorem lines_text {body : EventBody} (hclean : body.Clean) :
    Text.lines body.text = body.lines := by
  obtain ⟨ended, last⟩ := body
  induction ended with
  | nil =>
      by_cases hlast : last = []
      · rw [hlast]
        rfl
      · have hmem : last ∈ EventBody.lines ⟨[], last⟩ := by simp [EventBody.lines, hlast]
        have hsingle := lines_single (hclean last hmem).1 hlast
        simpa [EventBody.text, EventBody.lines, hlast] using hsingle
  | cons line ended ih =>
      obtain ⟨line, terminator⟩ := line
      have hline := hclean line (by simp [EventBody.lines])
      have hrest := ih fun other hother => hclean other (List.mem_cons_of_mem line hother)
      have hlines : EventBody.lines ⟨(line, terminator) :: ended, last⟩ =
          line :: EventBody.lines ⟨ended, last⟩ := rfl
      rw [hlines, ← hrest]
      cases terminator with
      | lineFeed =>
          have happend := lines_append hline.1 hline.2 (EventBody.text ⟨ended, last⟩)
          simpa [EventBody.text, Terminator.text] using happend
      | carriageReturn =>
          have hfeed : '\n' ∉ line ++ ['\r'] := by
            simpa using hline.1
          have hfrom := linesFrom_append hfeed [] ('\n' :: EventBody.text ⟨ended, last⟩)
          rw [List.nil_append, linesFrom, if_pos rfl, stripCarriageReturn_concat] at hfrom
          simpa [EventBody.text, Terminator.text, Text.lines] using hfrom

end EventBody

/-- A line is a data field with this value; one space after the colon does not count. -/
inductive DataField : List Char → List Char → Prop
  | bare : DataField "data".toList []
  | plain {value : List Char} (hvalue : value.head? ≠ some ' ') :
      DataField ("data:".toList ++ value) value
  | spaced {value : List Char} : DataField ("data: ".toList ++ value) value

/-- A line has data exactly where it is a data field. -/
theorem lineData_eq_some_iff {line value : List Char} :
    lineData line = some value ↔ DataField line value := by
  unfold lineData
  cases hfield : stripPrefix "data:".toList line with
  | none =>
      dsimp only
      constructor
      · intro hvalue
        split at hvalue
        next hbare =>
          cases hvalue
          rw [hbare]
          exact .bare
        next => cases hvalue
      · intro hdata
        cases hdata with
        | bare => rfl
        | plain _ =>
            rw [stripPrefix_eq_some.mpr rfl] at hfield
            cases hfield
        | spaced =>
            have hspaced : "data: ".toList ++ value = "data:".toList ++ (' ' :: value) := rfl
            rw [stripPrefix_eq_some.mpr hspaced] at hfield
            cases hfield
  | some rest =>
      have hline := stripPrefix_eq_some.mp hfield
      subst hline
      simp only [Option.some.injEq]
      cases hspace : stripPrefix [' '] rest with
      | none =>
          -- No space follows the colon: the value is the rest as it stands.
          have hhead : rest.head? ≠ some ' ' := by
            intro hhead
            obtain ⟨tail, rfl⟩ := List.head?_eq_some_iff.mp hhead
            have hsome : stripPrefix [' '] (' ' :: tail) = some tail := stripPrefix_eq_some.mpr rfl
            rw [hsome] at hspace
            cases hspace
          rw [Option.getD_none]
          constructor
          · rintro rfl
            exact .plain hhead
          · intro hdata
            generalize hline : "data:".toList ++ rest = line at hdata
            cases hdata with
            | bare =>
                have hlength := congrArg List.length hline
                simp at hlength
            | plain _ => exact List.append_cancel_left hline
            | spaced =>
                have hspaced : "data: ".toList ++ value = "data:".toList ++ (' ' :: value) := rfl
                rw [hspaced] at hline
                rw [List.append_cancel_left hline] at hhead
                exact absurd rfl hhead
      | some tail =>
          -- One space after the colon is not part of the value.
          have hrest := stripPrefix_eq_some.mp hspace
          subst hrest
          rw [Option.getD_some]
          constructor
          · rintro rfl
            exact .spaced
          · intro hdata
            generalize hline : "data:".toList ++ ([' '] ++ tail) = line at hdata
            cases hdata with
            | bare =>
                have hlength := congrArg List.length hline
                simp at hlength
            | plain hvalue =>
                rw [← List.append_cancel_left hline] at hvalue
                exact absurd rfl hvalue
            | spaced =>
                have hspaced : "data: ".toList ++ value = "data:".toList ++ ([' '] ++ value) := rfl
                rw [hspaced] at hline
                exact List.append_cancel_left (List.append_cancel_left hline)

/-- The data of the lines of an event, if it has a data field. -/
def eventData (event : List (List Char)) : Option (List Char) :=
  if event.filterMap lineData = [] then none
  else some (['\n'].intercalate (event.filterMap lineData))

/-- The data of the events of a body, in order: the groups of lines between blank ones. -/
def eventsOf (lines : List (List Char)) : List (List Char) :=
  (lines.splitOnP List.isEmpty).filterMap eventData

/-- An event with these data values. -/
def pendingEvent (values : List (List Char)) : List (List Char) :=
  if values = [] then [] else [['\n'].intercalate values]

theorem filterMap_eventData (event : List (List Char)) (rest : List (List (List Char))) :
    (event :: rest).filterMap eventData =
      pendingEvent (event.filterMap lineData) ++ rest.filterMap eventData := by
  rw [List.filterMap_cons, eventData, pendingEvent]
  by_cases hvalues : event.filterMap lineData = []
  · rw [if_pos hvalues, if_pos hvalues]
    rfl
  · rw [if_neg hvalues, if_neg hvalues]
    rfl

/-- The values read so far belong to the first event. -/
theorem sseDataEvents_eq (dataLines lines : List (List Char)) :
    ∃ first rest, lines.splitOnP List.isEmpty = first :: rest ∧
      Locust.sseDataEvents dataLines lines =
        pendingEvent (dataLines ++ first.filterMap lineData) ++ rest.filterMap eventData := by
  induction lines generalizing dataLines with
  | nil => exact ⟨[], [], rfl, by simp [Locust.sseDataEvents, pendingEvent, Locust.joinLines]⟩
  | cons line lines ih =>
      rw [List.splitOnP_cons_eq_if_modifyHead]
      by_cases hline : line = []
      · subst hline
        obtain ⟨first, rest, hsplit, hevents⟩ := ih []
        refine ⟨[], first :: rest, by rw [hsplit]; rfl, ?_⟩
        rw [sseDataEvents_blank, hevents, filterMap_eventData]
        simp [Locust.sseDataEvents, pendingEvent, Locust.joinLines]
      · have hempty : ¬ line.isEmpty = true := by simpa using hline
        rw [if_neg hempty, sseDataEvents_line dataLines hline, ← lineData_eq]
        cases hdata : lineData line with
        | none =>
            obtain ⟨first, rest, hsplit, hevents⟩ := ih dataLines
            refine ⟨line :: first, rest, by rw [hsplit]; rfl, ?_⟩
            rw [List.filterMap_cons_none hdata]
            exact hevents
        | some value =>
            obtain ⟨first, rest, hsplit, hevents⟩ := ih (dataLines ++ [value])
            refine ⟨line :: first, rest, by rw [hsplit]; rfl, ?_⟩
            rw [List.filterMap_cons_some hdata]
            simpa using hevents

/-- The decoder's events are those of the grammar. -/
theorem sseDataEvents_eq_eventsOf (lines : List (List Char)) :
    Locust.sseDataEvents [] lines = eventsOf lines := by
  obtain ⟨first, rest, hsplit, hevents⟩ := sseDataEvents_eq [] lines
  rw [hevents, List.nil_append, eventsOf, hsplit, filterMap_eventData]

/-- Lines without a blank one, with blank ones before and after them, are one event. -/
theorem eventsOf_single {event : List (List Char)} (hevent : ∀ line ∈ event, line ≠ [])
    (before after : Nat) :
    eventsOf (List.replicate before [] ++ (event ++ List.replicate after [])) =
      pendingEvent (event.filterMap lineData) := by
  have hblank : ∀ count : Nat, eventsOf (List.replicate count []) = [] := by
    intro count
    rw [← sseDataEvents_eq_eventsOf]
    induction count with
    | zero => rfl
    | succ count ih => rw [List.replicate_succ, sseDataEvents_blank, ih]; rfl
  have hlines : ∀ values lines, (∀ line ∈ lines, line ≠ []) →
      Locust.sseDataEvents values (lines ++ List.replicate after []) =
        pendingEvent (values ++ lines.filterMap lineData) := by
    intro values lines hlines
    induction lines generalizing values with
    | nil =>
        have hrest := hblank (after - 1)
        cases after with
        | zero => simp [Locust.sseDataEvents, pendingEvent, Locust.joinLines]
        | succ after =>
            rw [← sseDataEvents_eq_eventsOf, Nat.add_sub_cancel] at hrest
            rw [List.nil_append, List.replicate_succ, sseDataEvents_blank, hrest]
            simp [Locust.sseDataEvents, pendingEvent, Locust.joinLines]
    | cons line lines ih =>
        have htail := fun other hother => hlines other (List.mem_cons_of_mem line hother)
        rw [List.cons_append, sseDataEvents_line values (hlines line List.mem_cons_self),
          ← lineData_eq]
        cases hdata : lineData line with
        | none => rw [List.filterMap_cons_none hdata]; exact ih values htail
        | some value =>
            rw [List.filterMap_cons_some hdata]
            have hrest := ih (values ++ [value]) htail
            rw [List.append_assoc] at hrest
            exact hrest
  rw [← sseDataEvents_eq_eventsOf]
  induction before with
  | zero => simpa using hlines [] event hevent
  | succ before ih => rw [List.replicate_succ, List.cons_append, sseDataEvents_blank, ih]; rfl

/-- The client returns the last event that is JSON, where data fields alone count, and a
text that is written as the data lines of one event comes back as its value. -/
theorem parseMcpBody_grammar {parser : JsonParser} {contentType : List Char}
    (hstream : isEventStream contentType) :
    (∀ body : EventBody, body.Clean →
      parseMcpBody parser body.text contentType =
        .ok (((eventsOf body.lines).filterMap parser.parse).getLast?)) ∧
      (∀ line value : List Char, lineData line = some value ↔ DataField line value) ∧
      ∀ (value : Value) (text : List Char) (body : EventBody) (event : List (List Char))
        (before after : Nat), parser.parse text = some value → body.Clean →
        body.lines = List.replicate before [] ++ (event ++ List.replicate after []) →
        (∀ line ∈ event, line ≠ []) →
        ['\n'].intercalate (event.filterMap lineData) = text →
        parseMcpBody parser body.text contentType = .ok (some value) := by
  have hall : ∀ body : EventBody, body.Clean →
      parseMcpBody parser body.text contentType =
        .ok (((eventsOf body.lines).filterMap parser.parse).getLast?) := by
    intro body hclean
    rw [protocol_parseMcpBody parser hstream, body.lines_text hclean, sseDataEvents_eq_eventsOf]
    rfl
  refine ⟨hall, fun line value => lineData_eq_some_iff, ?_⟩
  intro value text body event before after hparse hclean hlines hevent htext
  have hvalues : event.filterMap lineData ≠ [] := by
    intro hnone
    rw [← htext, hnone] at hparse
    have hempty := parser.empty
    rw [List.intercalate_nil, hempty] at hparse
    cases hparse
  rw [hall body hclean, hlines, eventsOf_single hevent, pendingEvent, if_neg hvalues, htext]
  simp [hparse]

/-- A parser on an empty array that is written on two lines. -/
def twoLineParser : JsonParser where
  parse text := if trim isJsonWhitespace text = "[\n]".toList then some (.array []) else none
  trimmed text := by simp only [trim_trim]
  empty := by decide

/-- An event with a comment that the end of the body ends. -/
def twoLineBody : EventBody where
  ended := [(": note".toList, .carriageReturn), ("data: [".toList, .lineFeed)]
  last := "data:]".toList

theorem parseMcpBody_grammar_twoLines :
    parseMcpBody twoLineParser twoLineBody.text "text/event-stream; charset=utf-8".toList =
      .ok (some (.array [])) := by
  have hgrammar := @parseMcpBody_grammar twoLineParser
    "text/event-stream; charset=utf-8".toList (by decide)
  refine hgrammar.2.2 (.array []) "[\n]".toList twoLineBody
    [": note".toList, "data: [".toList, "data:]".toList] 0 0 (by rfl) ?_ (by decide) (by decide)
    (by decide)
  unfold EventBody.Clean
  decide

end CfIntegration.Mcp.Protocol
