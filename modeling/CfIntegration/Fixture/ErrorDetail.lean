import CfIntegration.Fixture.Client
import CfIntegration.Foundation.Marked
import CfIntegration.Mcp.Gateway

/-! # The text of a failed request

What a failed response says is cut to a number of bytes, read as JSON or as text, put on
one line and cut to a number of characters. Only then is the token replaced in it.
-/

namespace CfIntegration.Fixture

open Marked Text Utf8
open Mcp (Value)
open Mcp.Gateway (isControl)
open Mcp.Protocol (isWhitespace)

def maxErrorResponseBytes : Nat := 4 * 1024
def maxErrorDetailChars : Nat := 1024

section Detail

variable (fromSlice : List UInt8 → Option Value)

/-- The body up to the limit and whether there is more of it, from the chunks that
arrive; nothing if it breaks off before. -/
def boundedErrorBody (broken : Bool) (body : List UInt8) :
    List (List UInt8) → Option (List UInt8 × Bool)
  | [] => if broken then none else some (body, false)
  | chunk :: chunks =>
      let remaining := maxErrorResponseBytes - body.length
      if remaining < chunk.length then some (body ++ chunk.take remaining, true)
      else boundedErrorBody broken (body ++ chunk) chunks

/-- The text under the first of the two keys that an object has. -/
def errorMessage (body : List UInt8) : Option (List Char) := do
  let value ← fromSlice body
  let message ← (value.get? "message").or (value.get? "detail")
  return (← message.asStr).toList

def rawDetail (body : List UInt8) : List Char :=
  (errorMessage fromSlice body).getD (fromUtf8Lossy body)

def spaceControl (char : Char) : Char := if isControl char then ' ' else char

/-- One line, its words apart by single spaces. -/
def sanitizeDetail (raw : List Char) : List Char :=
  [' '].intercalate (words isWhitespace (raw.map spaceControl))

def moreInformation : List Char := " For more information check: ".toList
def truncatedMark : List Char := "… <truncated>".toList

def boundedErrorDetail (broken : Bool) (chunks : List (List UInt8)) : Option String := do
  let (body, truncated) ← boundedErrorBody broken [] chunks
  let sanitized := upTo moreInformation (sanitizeDetail (rawDetail fromSlice body))
  let detail := sanitized.take maxErrorDetailChars
  return String.ofList
    (if truncated || maxErrorDetailChars < sanitized.length then detail ++ truncatedMark
    else detail)

variable {fromSlice}

/-- How the body arrives makes no difference. -/
theorem boundedErrorBody_eq {broken : Bool} {body : List UInt8}
    (hbody : body.length ≤ maxErrorResponseBytes) (chunks : List (List UInt8)) :
    boundedErrorBody broken body chunks =
      if broken ∧ (body ++ chunks.flatten).length ≤ maxErrorResponseBytes then none
      else some ((body ++ chunks.flatten).take maxErrorResponseBytes,
        decide (maxErrorResponseBytes < (body ++ chunks.flatten).length)) := by
  induction chunks generalizing body with
  | nil =>
      simp only [boundedErrorBody, List.flatten_nil, List.append_nil, List.take_of_length_le hbody,
        hbody, and_true, Nat.not_lt.mpr hbody, decide_false]
  | cons chunk chunks ih =>
      rw [boundedErrorBody]
      split
      next hmore =>
        have htotal : maxErrorResponseBytes < (body ++ (chunk :: chunks).flatten).length := by
          simp only [List.flatten_cons, List.length_append]
          omega
        rw [if_neg fun hbroken => absurd hbroken.2 (Nat.not_le.mpr htotal), decide_eq_true htotal,
          List.flatten_cons, List.take_append, List.take_of_length_le hbody,
          List.take_append_of_le_length hmore.le]
      next hfits =>
        have hlonger : (body ++ chunk).length ≤ maxErrorResponseBytes := by
          rw [List.length_append]
          omega
        rw [ih hlonger, List.flatten_cons, List.append_assoc]

end Detail

theorem isTokenChar_ascii {char : Char} (hchar : isTokenChar char = true) : char.toNat < 0x80 := by
  simp only [isTokenChar, Bool.or_eq_true, List.contains_iff_mem] at hchar
  rcases hchar with halphanum | hmem
  · have hcode := Text.isAlphanum_code halphanum
    omega
  · have hall : ∀ other ∈ ['-', '.', '_', '~', '+', '/'], other.toNat < 0x80 := by decide
    exact hall char hmem

/-- A character of a token is plain ASCII. -/
theorem isValidBearerToken_plain {token : String} (htoken : isValidBearerToken token = true) :
    token.toList ≠ [] ∧ ∀ char ∈ token.toList,
      char.toNat < 0x80 ∧ isWhitespace char = false ∧ isControl char = false := by
  simp only [isValidBearerToken, Bool.and_eq_true, List.all_eq_true, decide_eq_true_eq] at htoken
  obtain ⟨⟨hne, hunpadded⟩, hpadding⟩ := htoken
  have hascii : ∀ code < 0x80, isTokenChar (Char.ofNat code) = true →
      isWhitespace (Char.ofNat code) = false ∧ isControl (Char.ofNat code) = false := by
    decide +kernel
  constructor
  · intro hempty
    rw [hempty] at hne
    exact absurd hne (by decide)
  · intro char hchar
    have hsplit := @List.takeWhile_append_dropWhile Char (fun char => decide (char ≠ '='))
      token.toList
    rw [← hsplit, List.mem_append] at hchar
    rcases hchar with hchar | hchar
    · have htokenChar := hunpadded char hchar
      have hcode := isTokenChar_ascii htokenChar
      have hplain := hascii char.toNat hcode
      rw [Char.ofNat_toNat] at hplain
      exact ⟨hcode, hplain htokenChar⟩
    · cases hpadding char hchar
      decide

theorem replaceFrom_drop (pattern replacement : List Char) (skipped : Nat) (text : List Char) :
    Overlap.replaceFrom pattern replacement skipped text =
      Overlap.replaceAll pattern replacement (text.drop skipped) := by
  induction skipped generalizing text with
  | zero => rfl
  | succ skipped ih =>
      cases text with
      | nil => rfl
      | cons first rest => exact ih rest

/-- The replacement of the standard library is the one of the theory of overlaps. -/
theorem replaceAll_eq (pattern replacement text : List Char) :
    replaceAll pattern replacement text = Overlap.replaceAll pattern replacement text := by
  induction hlength : text.length using Nat.strong_induction_on generalizing text with
  | _ length ih =>
      cases text with
      | nil => rw [replaceAll]; rfl
      | cons first rest =>
          rw [List.length_cons] at hlength
          rw [replaceAll, Overlap.replaceAll, Overlap.replaceFrom]
          split
          · rw [replaceFrom_drop, ih _ (by rw [List.length_drop]; omega) _ rfl]
          · rw [ih _ (by omega) _ rfl]
            rfl

/-- The redaction of a detail replaces every occurrence of the token. -/
theorem redact_toList {token : String} (htoken : token.toList ≠ []) (value : List Char) :
    redact (String.ofList value) token =
      String.ofList (Overlap.replaceAll token.toList redacted.toList value) := by
  have hne : token ≠ "" := fun hempty => htoken (by rw [hempty]; rfl)
  rw [redact, if_neg hne, replaceAll_eq, String.toList_ofList]

section Forms

variable {fromSlice : List UInt8 → Option Value}

def sanitizeForm (raw : Form Char) : Form Char :=
  ([' '].map Letter.plain).intercalate
    (words (Letter.isSpace isWhitespace) (raw.map (Letter.map spaceControl)))

def detailForm (truncated : Bool) (raw : Form Char) : Form Char :=
  let sanitized := upTo (moreInformation.map .plain) (sanitizeForm raw)
  cut sanitized maxErrorDetailChars ++
    (if truncated || maxErrorDetailChars < width sanitized then truncatedMark.map .plain else [])

def messageForm (method : Method) (path : String) (status : FailureStatus)
    (detail : Option (Form Char)) : Form Char :=
  (method.name ++ " " ++ path ++ " returned HTTP " ++ toString status.val).toList.map .plain ++
    match detail with
    | some detail => if detail = [] then [] else ": ".toList.map .plain ++ detail
    | none => []

/-- The message for a body whose text has the form `raw`. -/
def errorForm (method : Method) (path : String) (status : FailureStatus) (broken : Bool)
    (body : Form UInt8) (raw : Form Char) : Form Char :=
  messageForm method path status
    (if broken ∧ width body ≤ maxErrorResponseBytes then none
    else some (detailForm (maxErrorResponseBytes < width body) raw))

/-- What the client takes for the text of the body, as a form. -/
inductive Reads (fromSlice : List UInt8 → Option Value) (body : Form UInt8) (token : List Char) :
    Form Char → Prop
  | text (hnone : errorMessage fromSlice
        (fill (utf8 token) (cut body maxErrorResponseBytes)) = none) :
      Reads fromSlice body token (decodeFrom [] (cut body maxErrorResponseBytes))
  | message {raw : Form Char} (hwithin : Within token.length raw)
      (hsome : errorMessage fromSlice
        (fill (utf8 token) (cut body maxErrorResponseBytes)) = some (fill token raw)) :
      Reads fromSlice body token raw

/-- The transfer broke off within the limit, so that nothing of the body is shown. -/
abbrev Lost (broken : Bool) (body : Form UInt8) : Prop :=
  broken = true ∧ width body ≤ maxErrorResponseBytes

/-- The token is one word and no more: where the body is shown, it is read in the same way
around the token, which makes up no part of the phrase; and the token occurs in the message
in its own places only. -/
structure Verbatim (fromSlice : List UInt8 → Option Value) (method : Method) (path : String)
    (status : FailureStatus) (broken : Bool) (body : Form UInt8) (raw : Form Char)
    (token : List Char) : Prop where
  reads : ¬ Lost broken body → Reads fromSlice body token raw
  phrase : ¬ Lost broken body → Shows token moreInformation (sanitizeForm raw)
  free : Free token (errorForm method path status broken body raw)

variable {token : List Char}

/-- What holds of every character of a valid token. -/
def Plain (token : List Char) : Prop :=
  token ≠ [] ∧ ∀ char ∈ token,
    char.toNat < 0x80 ∧ isWhitespace char = false ∧ isControl char = false

/-- A detail that is read the same way has the parts of its body. -/
theorem Reads.within {body : Form UInt8} {raw : Form Char} (hbody : Within token.length body)
    (hreads : Reads fromSlice body token raw) : Within token.length raw := by
  cases hreads with
  | text _ => exact within_decodeFrom (within_cut hbody _) []
  | message hwithin _ => exact hwithin

theorem length_utf8 (hplain : Plain token) : (utf8 token).length = token.length := by
  rw [utf8_ascii fun char hchar => (hplain.2 char hchar).1, List.length_map]

/-- The raw detail of a body with the token is that of its form, filled with the token. -/
theorem Reads.rawDetail {body : Form UInt8} {raw : Form Char} (hplain : Plain token)
    (hbody : Within token.length body) (hreads : Reads fromSlice body token raw) :
    rawDetail fromSlice ((fill (utf8 token) body).take maxErrorResponseBytes) =
      fill token raw := by
  have hbytes : Within (utf8 token).length body := by rwa [length_utf8 hplain]
  have hcut := fill_cut hbytes maxErrorResponseBytes
  rw [Fixture.rawDetail, ← hcut]
  cases hreads with
  | text hnone =>
      rw [hnone, Option.getD_none, fill_decodeFrom (fun char hchar => (hplain.2 char hchar).1)
        (within_cut hbody _), List.nil_append]
  | message _ hsome => rw [hsome, Option.getD_some]

/-- Sanitizing keeps the parts within the token. -/
theorem within_sanitizeForm {length : Nat} {raw : Form Char} (hraw : Within length raw) :
    Within length (sanitizeForm raw) := by
  intro part hpart
  rcases mem_intercalate hpart with hspace | ⟨found, hfound, hmem⟩
  · exact within_plain length [' '] part hspace
  · rcases mem_wordsFrom hfound hmem with hnil | hraw'
    · cases hnil
    · exact within_map spaceControl hraw part hraw'

/-- Sanitizing a filled form is filling the sanitized one. -/
theorem fill_sanitizeForm (hplain : Plain token) {raw : Form Char}
    (hraw : Within token.length raw) :
    fill token (sanitizeForm raw) = sanitizeDetail (fill token raw) := by
  have hspace : ∀ char ∈ token, spaceControl char = char := fun char hchar => by
    rw [spaceControl, (hplain.2 char hchar).2.2]
    rfl
  rw [sanitizeForm, fill_intercalate, sanitizeDetail, ← fill_map hspace,
    fill_words (fun char hchar => (hplain.2 char hchar).2.1) (within_map spaceControl hraw)]

/-- The detail of a form has parts within the token only. -/
theorem within_detailForm {length : Nat} {raw : Form Char} (hraw : Within length raw)
    (truncated : Bool) : Within length (detailForm truncated raw) := by
  have hsanitized : Within length (upTo (moreInformation.map .plain) (sanitizeForm raw)) :=
    fun part hpart => within_sanitizeForm hraw part ((upTo_begins _ _).subset hpart)
  refine (within_cut hsanitized _).append ?_
  split
  · exact within_plain length truncatedMark
  · exact within_plain length []

/-- The detail of a filled form is the filled detail of the form. -/
theorem fill_detailForm (hplain : Plain token) {raw : Form Char}
    (hraw : Within token.length raw) (hphrase : Shows token moreInformation (sanitizeForm raw))
    (truncated : Bool) :
    fill token (detailForm truncated raw) =
      let sanitized := upTo moreInformation (sanitizeDetail (fill token raw))
      if truncated || maxErrorDetailChars < sanitized.length then
        sanitized.take maxErrorDetailChars ++ truncatedMark
      else sanitized.take maxErrorDetailChars := by
  have hsanitized := within_sanitizeForm hraw
  have hspace : ' ' ∉ token := fun hmem => by
    have hwhitespace := (hplain.2 ' ' hmem).2.1
    revert hwhitespace
    decide
  have hupTo : fill token (upTo (moreInformation.map .plain) (sanitizeForm raw)) =
      upTo moreInformation (sanitizeDetail (fill token raw)) := by
    rw [← fill_sanitizeForm hplain hraw]
    exact fill_upTo hspace hsanitized hphrase
  have hwithin : Within token.length (upTo (moreInformation.map .plain) (sanitizeForm raw)) :=
    fun part hpart => hsanitized part ((upTo_begins _ _).subset hpart)
  rw [detailForm, fill_append, fill_cut hwithin, hupTo, ← length_fill hwithin, hupTo]
  dsimp only
  split
  · rw [fill_plain]
  · rw [fill_nil, List.append_nil]

/-- The detail of a response whose body is filled with the token. -/
theorem boundedErrorDetail_fill (hplain : Plain token) {body : Form UInt8} {raw : Form Char}
    {chunks : List (List UInt8)} (hbody : Within token.length body)
    (hchunks : chunks.flatten = fill (utf8 token) body) {broken : Bool}
    (hreads : ¬ Lost broken body → Reads fromSlice body token raw)
    (hphrase : ¬ Lost broken body → Shows token moreInformation (sanitizeForm raw)) :
    boundedErrorDetail fromSlice broken chunks =
      if broken ∧ width body ≤ maxErrorResponseBytes then none
      else some (String.ofList
        (fill token (detailForm (maxErrorResponseBytes < width body) raw))) := by
  have hbytes : Within (utf8 token).length body := by rwa [length_utf8 hplain]
  rw [boundedErrorDetail, boundedErrorBody_eq (Nat.zero_le _), List.nil_append, hchunks,
    length_fill hbytes]
  split
  · rfl
  next hshown =>
    simp only [Option.bind_eq_bind, Option.bind_some, (hreads hshown).rawDetail hplain hbody]
    rw [fill_detailForm hplain ((hreads hshown).within hbody) (hphrase hshown)]
    rfl

/-- The message of a form has parts within the token only. -/
theorem within_errorForm {length : Nat} {raw : Form Char} {broken : Bool} {body : Form UInt8}
    (hraw : ¬ Lost broken body → Within length raw) (method : Method) (path : String)
    (status : FailureStatus) :
    Within length (errorForm method path status broken body raw) := by
  refine (within_plain length _).append ?_
  split
  next detail hdetail =>
    split at hdetail
    · cases hdetail
    next hshown =>
      cases hdetail
      split
      · exact within_plain length []
      · exact (within_plain length _).append (within_detailForm (hraw hshown) _)
  next => exact within_plain length []

/-- The message with the detail that fills a form fills the form of the message. -/
theorem responseError_eq (client : ConformanceFixtureClient) (method : Method) (path : String)
    (status : FailureStatus) {detail : Option (Form Char)}
    (hwithin : ∀ form, detail = some form → Within client.adminToken.toList.length form) :
    client.responseError method path status
        (detail.map fun form => String.ofList (fill client.adminToken.toList form)) =
      redact (String.ofList (fill client.adminToken.toList
        (messageForm method path status detail))) client.adminToken := by
  unfold ConformanceFixtureClient.responseError messageForm
  generalize method.name ++ " " ++ path ++ " returned HTTP " ++ toString status.val = head
  have hhead : String.ofList head.toList = head := String.ofList_toList
  refine congrArg (redact · client.adminToken) ?_
  rw [fill_append, fill_plain, String.ofList_append, hhead]
  refine congrArg (head ++ ·) ?_
  cases detail with
  | none => rfl
  | some form =>
      have hempty : String.ofList (fill client.adminToken.toList form) = "" ↔ form = [] := by
        rw [← fill_eq_nil (hwithin form rfl), ← String.ofList_nil, String.ofList_inj]
      simp only [Option.map_some, hempty]
      split
      · rfl
      · rw [fill_append, fill_plain, String.ofList_append, String.ofList_toList]

/-- The error shows the message with the marker in the places of the token, and what a
limit has left of the token beside it. -/
theorem responseError_fill {client : ConformanceFixtureClient} {method : Method} {path : String}
    {status : FailureStatus} {broken : Bool} {body : Form UInt8} {raw : Form Char}
    {chunks : List (List UInt8)} (hbody : Within client.adminToken.toList.length body)
    (hchunks : chunks.flatten = fill (utf8 client.adminToken.toList) body)
    (hverbatim : Verbatim fromSlice method path status broken body raw
      client.adminToken.toList) :
    client.responseError method path status (boundedErrorDetail fromSlice broken chunks) =
      String.ofList ((errorForm method path status broken body raw).flatMap
        (Letter.shown redacted.toList client.adminToken.toList)) := by
  have hplain : Plain client.adminToken.toList := isValidBearerToken_plain client.validToken
  have hfree := hverbatim.free
  have hdetail := boundedErrorDetail_fill hplain hbody hchunks hverbatim.reads hverbatim.phrase
  unfold errorForm at hfree ⊢
  rw [← replaceAll_fill hplain.1 redacted.toList hfree, ← redact_toList hplain.1,
    ← responseError_eq, hdetail]
  · split <;> rfl
  · intro form hform
    split at hform
    · cases hform
    next hshown =>
      cases hform
      exact within_detailForm ((hverbatim.reads hshown).within hbody) _

/-- The texts for two tokens are the same exactly when no limit leaves a part of a token
that tells them apart. -/
theorem responseError_same_iff {client other : ConformanceFixtureClient} {method : Method}
    {path : String} {status : FailureStatus} {broken : Bool} {template : List (Option UInt8)}
    {raw : Form Char} {chunks otherChunks : List (List UInt8)}
    (hlength : client.adminToken.toList.length = other.adminToken.toList.length)
    (hchunks : chunks.flatten = fill (utf8 client.adminToken.toList)
      (opened client.adminToken.toList.length template))
    (hotherChunks : otherChunks.flatten = fill (utf8 other.adminToken.toList)
      (opened client.adminToken.toList.length template))
    (hverbatim : Verbatim fromSlice method path status broken
      (opened client.adminToken.toList.length template) raw client.adminToken.toList)
    (hotherVerbatim : Verbatim fromSlice method path status broken
      (opened client.adminToken.toList.length template) raw other.adminToken.toList) :
    client.responseError method path status (boundedErrorDetail fromSlice broken chunks) =
        other.responseError method path status
          (boundedErrorDetail fromSlice broken otherChunks) ↔
      ∀ part < client.adminToken.toList.length,
        .part part ∈ errorForm method path status broken
          (opened client.adminToken.toList.length template) raw →
        client.adminToken.toList.take part = other.adminToken.toList.take part := by
  have hplain : Plain client.adminToken.toList := isValidBearerToken_plain client.validToken
  have hbody := within_opened (List.length_pos_iff.mpr hplain.1) template
  have hform := within_errorForm (fun hshown => (hverbatim.reads hshown).within hbody) method path
    status
  rw [responseError_fill hbody hchunks hverbatim,
    responseError_fill (hlength ▸ hbody) hotherChunks hotherVerbatim, String.ofList_inj,
    shown_eq_iff redacted.toList hlength hform]

end Forms

/-- Some letters, and the token. -/
def paddedBody (length : Nat) : List (Option UInt8) :=
  List.replicate length (some (byteOf 'x')) ++ [none]

def paddedForm (length : Nat) : Form Char :=
  (List.replicate length 'x').map .plain ++ [.part 7]

theorem paddedBody_eq (length : Nat) : opened 7 (paddedBody length) =
    (utf8 (List.replicate length 'x')).map .plain ++ [.part 7] := by
  have hascii : ∀ char ∈ List.replicate length 'x', char.toNat < 0x80 := by
    intro char hchar
    rw [List.eq_of_mem_replicate hchar]
    decide
  simp [opened, paddedBody, utf8_ascii hascii]

theorem reads_paddedForm {length : Nat} (hlength : length ≤ 1024) (token : List Char) :
    Reads (fun _ => none) (opened 7 (paddedBody length)) token (paddedForm length) := by
  have hascii : ∀ char ∈ List.replicate length 'x', char.toNat < 0x80 := by
    intro char hchar
    rw [List.eq_of_mem_replicate hchar]
    decide
  have hcut : cut (opened 7 (paddedBody length)) maxErrorResponseBytes =
      opened 7 (paddedBody length) := by
    refine cut_of_width_le ?_ fun part hpart =>
      (within_opened (by decide) (paddedBody length) part hpart).1
    have hwidth : width (opened 7 (paddedBody length)) = length + 7 := by
      simp [width, opened, paddedBody, Letter.width]
    rw [hwidth, maxErrorResponseBytes]
    omega
  have hform : decodeFrom [] (opened 7 (paddedBody length)) = paddedForm length := by
    have htext := decode_utf8_append hascii []
    rw [List.append_nil] at htext
    rw [paddedBody_eq, decodeFrom_plain_append, List.nil_append, decodeFrom, fromUtf8Lossy, htext,
      paddedForm]
    simp [decodeFrom, fromUtf8Lossy, decode, decodeSteps]
  have hreads : Reads (fun _ => none) (opened 7 (paddedBody length)) token _ := .text rfl
  rwa [hcut, hform] at hreads

theorem sanitizeForm_paddedForm (length : Nat) :
    sanitizeForm (paddedForm length) = paddedForm length := by
  have hmap : (paddedForm length).map (Letter.map spaceControl) = paddedForm length := by
    have hx : spaceControl 'x' = 'x' := by decide
    simp [paddedForm, Letter.map, hx]
  have hspace : ∀ letter ∈ paddedForm length, Letter.isSpace isWhitespace letter = false := by
    intro letter hletter
    rcases List.mem_append.mp hletter with hletter | hletter
    · obtain ⟨char, hchar, rfl⟩ := List.mem_map.mp hletter
      rw [List.eq_of_mem_replicate hchar]
      decide
    · rw [List.mem_singleton.mp hletter]
      rfl
  have hne : paddedForm length ≠ [] := by simp [paddedForm]
  have hwords := wordsFrom_append hspace [] []
  rw [List.append_nil, List.nil_append, wordsFrom, if_neg hne] at hwords
  rw [sanitizeForm, hmap, words, hwords]
  simp

/-- The detail ends within the token when the letters before it leave no room. -/
theorem detailForm_paddedForm {length : Nat} (hlength : length ≤ 1024) :
    detailForm false (paddedForm length) =
      (List.replicate length 'x').map .plain ++ cut [.part 7] (1024 - length) ++
        (if 1024 < length + 7 then truncatedMark.map .plain else []) := by
  have hspace : Letter.plain ' ' ∉ paddedForm length := by
    simp [paddedForm, List.mem_replicate]
  have hup : upTo (moreInformation.map .plain) (paddedForm length) = paddedForm length := by
    have happend := @upTo_append (Letter Char) _ (.plain ' ')
      ("For more information check: ".toList.map .plain) _ hspace []
    rwa [List.append_nil, upTo_nil, List.append_nil] at happend
  have hwidth : width (paddedForm length) = length + 7 := by
    simp [width, paddedForm, Letter.width]
  rw [detailForm, sanitizeForm_paddedForm, hup, hwidth, paddedForm, cut_plain_append]
  · by_cases hmark : 1024 < length + 7 <;> simp [maxErrorDetailChars, hmark]
  · simpa [maxErrorDetailChars] using hlength

theorem unavailable_failure : ¬ (200 ≤ 503 ∧ 503 < 300) := by decide

def unavailable : FailureStatus := ⟨503, unavailable_failure⟩

/-- The letters that the message for such a body has beside the token's. -/
def paddedLetters : List Char := "GET /servers returned HTTP 503: x… <truncated>".toList

theorem errorForm_padded {length : Nat} (hlength : length ≤ 1024) :
    errorForm .get "/servers" unavailable false (opened 7 (paddedBody length))
        (paddedForm length) =
      "GET /servers returned HTTP 503: ".toList.map .plain ++
        detailForm false (paddedForm length) := by
  have hwidth : width (opened 7 (paddedBody length)) = length + 7 := by
    simp [width, opened, paddedBody, Letter.width]
  have hsmall : ¬ maxErrorResponseBytes < width (opened 7 (paddedBody length)) := by
    rw [hwidth, maxErrorResponseBytes]
    omega
  have hhead : (Method.get.name ++ " " ++ "/servers" ++ " returned HTTP " ++
      toString unavailable.val).toList ++ ": ".toList =
        "GET /servers returned HTTP 503: ".toList := by decide +kernel
  have hne : detailForm false (paddedForm length) ≠ [] := by
    rw [detailForm_paddedForm hlength]
    cases length with
    | zero => simp [cut]
    | succ length => simp [List.replicate_succ]
  rw [errorForm, if_neg (by simp), messageForm, decide_eq_false hsmall, ← hhead]
  simp only [hne, if_false, List.map_append, List.append_assoc]

theorem plain_mem_padded {length : Nat} (hlength : length ≤ 1024) {char : Char}
    (hchar : .plain char ∈ errorForm .get "/servers" unavailable false
      (opened 7 (paddedBody length)) (paddedForm length)) : char ∈ paddedLetters := by
  rw [errorForm_padded hlength, detailForm_paddedForm hlength] at hchar
  have hinner : ∀ text : List Char, Letter.plain char ∈ text.map .plain → char ∈ text := by
    intro text hmem
    obtain ⟨other, hother, heq⟩ := List.mem_map.mp hmem
    cases heq
    exact hother
  simp only [List.mem_append] at hchar
  rcases hchar with hhead | (hpadding | hpart) | hmark
  · have hall : ∀ other ∈ "GET /servers returned HTTP 503: ".toList, other ∈ paddedLetters := by
      decide +kernel
    exact hall char (hinner _ hhead)
  · rw [List.eq_of_mem_replicate (hinner _ hpadding)]
    decide +kernel
  · have hnone : ∀ limit, Letter.plain char ∉ cut [.part 7] limit := by
      rintro (_ | limit)
      · simp [cut]
      · rw [cut]
        split <;> simp [cut]
    exact absurd hpart (hnone _)
  · split at hmark
    · have hall : ∀ other ∈ truncatedMark, other ∈ paddedLetters := by decide +kernel
      exact hall char (hinner _ hmark)
    · cases hmark

theorem mem_paddedBody {length : Nat} {byte : UInt8} (hbyte : some byte ∈ paddedBody length) :
    byte = byteOf 'x' := by
  rcases List.mem_append.mp hbyte with hbyte | hbyte
  · exact Option.some_injective _ (List.eq_of_mem_replicate hbyte)
  · cases List.mem_singleton.mp hbyte

theorem part_mem_padded {length : Nat} (hlength : length ≤ 1024) (hroom : 1 ≤ 1024 - length)
    (hpart : 1024 - length < 7) :
    .part (1024 - length) ∈ errorForm .get "/servers" unavailable false
      (opened 7 (paddedBody length)) (paddedForm length) := by
  rw [errorForm_padded hlength, detailForm_paddedForm hlength]
  have hcut : cut ([.part 7] : Form Char) (1024 - length) = [.part (1024 - length)] := by
    obtain ⟨room, hroom⟩ : ∃ room, 1024 - length = room + 1 := ⟨1023 - length, by omega⟩
    rw [hroom, cut, if_pos (by omega)]
  rw [hcut]
  simp

/-- A token with other letters than the message, the first of them once, is only a word. -/
theorem verbatim_padded {length : Nat} (hlength : length ≤ 1024) {first : Char}
    {others : List Char} (hfirst : first ∉ others) (hcount : others.length = 6)
    (hletters : ∀ char ∈ first :: others, char ∉ paddedLetters) :
    Verbatim (fun _ => none) .get "/servers" unavailable false (opened 7 (paddedBody length))
      (paddedForm length) (first :: others) := by
  have hseven : (first :: others).length = 7 := by rw [List.length_cons, hcount]
  have hbody : Within (first :: others).length (opened 7 (paddedBody length)) := by
    rw [hseven]
    exact within_opened (by decide) (paddedBody length)
  have hraw := (reads_paddedForm hlength (first :: others)).within hbody
  have hform : Within (first :: others).length (errorForm .get "/servers" unavailable false
      (opened 7 (paddedBody length)) (paddedForm length)) :=
    within_errorForm (fun _ => hraw) .get "/servers" unavailable
  refine ⟨fun _ => reads_paddedForm hlength _, fun _ => ?_, ?_⟩
  · have hphrase : moreInformation = ' ' :: "For more information check: ".toList := by
      decide +kernel
    have hspace : ' ' ∉ first :: others := fun hmem => hletters ' ' hmem (by decide +kernel)
    rw [sanitizeForm_paddedForm, hphrase]
    refine shows_of_not_mem hspace hraw ?_
    simp [paddedForm, List.mem_replicate]
  · refine free_of_not_mem hfirst hform ?_
    intro char hchar hmem
    exact hletters char hchar (plain_mem_padded hlength hmem)

/-- A client with this token. -/
def tokenClient (token : String) (htoken : isValidBearerToken token = true) :
    ConformanceFixtureClient where
  baseUrl := "http://127.0.0.1:8080/"
  adminToken := token
  maxAttempts := 40
  requestTimeout := 30 * 1000000000
  reconciliationAttempts := 5
  maxAttempts_pos := Nat.le_of_ble_eq_true rfl
  requestTimeout_pos := Nat.le_of_ble_eq_true rfl
  quietAttempts_le := Nat.le_of_ble_eq_true rfl
  validToken := htoken

def letterClient : ConformanceFixtureClient := tokenClient "fgijklm" (by decide +kernel)
def digitClient : ConformanceFixtureClient := tokenClient "1246789" (by decide +kernel)

def paddedChunks (client : ConformanceFixtureClient) (length : Nat) : List (List UInt8) :=
  [fill (utf8 client.adminToken.toList) (opened 7 (paddedBody length))]

theorem letterClient_toList : letterClient.adminToken.toList = 'f' :: "gijklm".toList := by
  decide +kernel

theorem digitClient_toList : digitClient.adminToken.toList = '1' :: "246789".toList := by
  decide +kernel

/-- The message for the letter client is read in the same way around its token. -/
theorem letterClient_verbatim {length : Nat} (hlength : length ≤ 1024) :
    Verbatim (fun _ => none) .get "/servers" unavailable false (opened 7 (paddedBody length))
      (paddedForm length) letterClient.adminToken.toList := by
  rw [letterClient_toList]
  exact verbatim_padded hlength (by decide +kernel) (by decide +kernel) (by decide +kernel)

/-- The message for the digit client is read in the same way around its token. -/
theorem digitClient_verbatim {length : Nat} (hlength : length ≤ 1024) :
    Verbatim (fun _ => none) .get "/servers" unavailable false (opened 7 (paddedBody length))
      (paddedForm length) digitClient.adminToken.toList := by
  rw [digitClient_toList]
  exact verbatim_padded hlength (by decide +kernel) (by decide +kernel) (by decide +kernel)

/-- Within the limits nothing is left of the token. -/
theorem responseError_same_short :
    letterClient.responseError .get "/servers" unavailable
        (boundedErrorDetail (fun _ => none) false (paddedChunks letterClient 4)) =
      digitClient.responseError .get "/servers" unavailable
        (boundedErrorDetail (fun _ => none) false (paddedChunks digitClient 4)) := by
  have hseven : letterClient.adminToken.toList.length = 7 := by decide +kernel
  have hsame : letterClient.adminToken.toList.length = digitClient.adminToken.toList.length := by
    decide +kernel
  refine (@responseError_same_iff (fun _ => none) letterClient digitClient .get "/servers"
    unavailable false (paddedBody 4) (paddedForm 4) (paddedChunks letterClient 4)
    (paddedChunks digitClient 4) hsame ?_ ?_ ?_ ?_).mpr ?_
  · rw [hseven, paddedChunks, List.flatten_singleton]
  · rw [hseven, paddedChunks, List.flatten_singleton]
  · rw [hseven]
    exact letterClient_verbatim (by decide)
  · rw [hseven]
    exact digitClient_verbatim (by decide)
  · rw [hseven, errorForm_padded (by decide), detailForm_paddedForm (by decide)]
    intro part hpart hmem
    simp [cut] at hmem
    omega

/-- A token that the limit falls inside is shown in part. -/
theorem responseError_shows_part :
    letterClient.adminToken.toList.length = digitClient.adminToken.toList.length ∧
      (∀ byte, some byte ∈ paddedBody 1020 → byte ∉ utf8 letterClient.adminToken.toList ∧
        byte ∉ utf8 digitClient.adminToken.toList) ∧
      letterClient.responseError .get "/servers" unavailable
          (boundedErrorDetail (fun _ => none) false (paddedChunks letterClient 1020)) ≠
        digitClient.responseError .get "/servers" unavailable
          (boundedErrorDetail (fun _ => none) false (paddedChunks digitClient 1020)) := by
  have hseven : letterClient.adminToken.toList.length = 7 := by decide +kernel
  have hdigits : digitClient.adminToken.toList.length = 7 := by decide +kernel
  have hbody := within_opened (by decide : 0 < 7) (paddedBody 1020)
  refine ⟨hseven.trans hdigits.symm, ?_, ?_⟩
  · intro byte hbyte
    rw [mem_paddedBody hbyte]
    exact ⟨by decide +kernel, by decide +kernel⟩
  · have hletters := responseError_fill (hseven ▸ hbody) (List.flatten_singleton)
      (letterClient_verbatim (by decide : 1020 ≤ 1024))
    have hdigitText := responseError_fill (hdigits ▸ hbody) (List.flatten_singleton)
      (digitClient_verbatim (by decide : 1020 ≤ 1024))
    have hraw : Within letterClient.adminToken.toList.length (paddedForm 1020) :=
      (reads_paddedForm (by decide : 1020 ≤ 1024) letterClient.adminToken.toList).within
        (hseven ▸ hbody)
    have hform : Within letterClient.adminToken.toList.length (errorForm .get "/servers" unavailable
        false (opened 7 (paddedBody 1020)) (paddedForm 1020)) :=
      within_errorForm (fun _ => hraw) .get "/servers" unavailable
    rw [paddedChunks, paddedChunks, hletters, hdigitText, ne_eq, String.ofList_inj,
      shown_eq_iff redacted.toList (hseven.trans hdigits.symm) hform]
    intro hparts
    have hfour := hparts 4 (by rw [hseven]; decide)
      (part_mem_padded (by decide : 1020 ≤ 1024) (by decide) (by decide))
    rw [letterClient_toList, digitClient_toList] at hfour
    exact absurd hfour (by decide +kernel)

end CfIntegration.Fixture
