import CfIntegration.Conformance.ResultLoading

/-! # Names of result directories

A directory name is cut at a byte offset counted from its end. The byte found there is a
dash, so the cut never falls inside a character, and a name decodes exactly when it is
one that is written for a scenario.
-/

namespace CfIntegration.Conformance

/-- A byte below 0x80 is a character of its own. -/
theorem utf8EncodeChar_of_ascii {char : Char} {byte : UInt8}
    (hmem : byte ∈ String.utf8EncodeChar char) (hascii : byte < 0x80) :
    String.utf8EncodeChar char = [byte] ∧ char.toNat = byte.toNat := by
  have hbyte : byte.toNat < 128 := hascii
  have hvalue : char.val.toNat = char.toNat := rfl
  unfold String.utf8EncodeChar at hmem ⊢
  simp only [hvalue] at hmem ⊢
  by_cases hsmall : char.toNat ≤ 0x7f
  · simp only [hsmall, if_true, List.mem_singleton] at hmem ⊢
    refine ⟨by rw [hmem], ?_⟩
    rw [hmem, UInt8.toNat_ofNat', Nat.mod_eq_of_lt (by omega)]
  · exfalso
    have hlarge : ∀ value, value < 128 → byte = UInt8.ofNat (value + 0x80) → False := by
      intro value hlt heq
      rw [heq, UInt8.toNat_ofNat', Nat.mod_eq_of_lt (by omega)] at hbyte
      omega
    split_ifs at hmem <;> simp only [List.mem_cons, List.not_mem_nil, or_false] at hmem
    · rcases hmem with heq | heq
      · exact hlarge (char.toNat / 64 % 0x20 + 0x40) (by omega) heq
      · exact hlarge (char.toNat % 0x40) (by omega) heq
    · rcases hmem with heq | heq | heq
      · exact hlarge (char.toNat / 4096 % 0x10 + 0x60) (by omega) heq
      · exact hlarge (char.toNat / 64 % 0x40) (by omega) heq
      · exact hlarge (char.toNat % 0x40) (by omega) heq
    · rcases hmem with heq | heq | heq | heq
      · exact hlarge (char.toNat / 262144 % 0x08 + 0x70) (by omega) heq
      · exact hlarge (char.toNat / 4096 % 0x40) (by omega) heq
      · exact hlarge (char.toNat / 64 % 0x40) (by omega) heq
      · exact hlarge (char.toNat % 0x40) (by omega) heq

/-- The text can be cut where one of its bytes is below 0x80. -/
theorem exists_split_of_ascii {text : List Char} {offset : Nat} {byte : UInt8}
    (hbyte : (utf8Bytes text)[offset]? = some byte) (hascii : byte < 0x80) :
    ∃ before char after, text = before ++ char :: after ∧ byteLen before = offset ∧
      char.toNat = byte.toNat := by
  induction text generalizing offset with
  | nil => simp [utf8Bytes] at hbyte
  | cons head tail ih =>
      have hbytes : utf8Bytes (head :: tail) = String.utf8EncodeChar head ++ utf8Bytes tail :=
        List.flatMap_cons
      rw [hbytes] at hbyte
      rcases Nat.lt_or_ge offset (String.utf8EncodeChar head).length with hinside | hlater
      · rw [List.getElem?_append_left hinside] at hbyte
        obtain ⟨hsingle, hvalue⟩ := utf8EncodeChar_of_ascii (List.mem_of_getElem? hbyte) hascii
        rw [hsingle, List.length_singleton] at hinside
        exact ⟨[], head, tail, rfl, (Nat.lt_one_iff.mp hinside).symm, hvalue⟩
      · rw [List.getElem?_append_right hlater] at hbyte
        obtain ⟨before, char, after, rfl, hoffset, hvalue⟩ := ih hbyte
        refine ⟨head :: before, char, after, rfl, ?_, hvalue⟩
        rw [String.length_utf8EncodeChar] at hlater hoffset
        rw [byteLen_cons, hoffset]
        omega

/-- What a directory name without its prefix is, as far as it is looked at. -/
theorem exists_split_of_dash {rest : List Char}
    (hdash : (utf8Bytes rest)[byteLen rest - 25]? = some '-'.toUInt8) :
    ∃ scenario timestamp, rest = scenario ++ '-' :: timestamp ∧
      splitAtByte rest (byteLen rest - 25) = some (scenario, '-' :: timestamp) ∧
      splitAtByte rest (byteLen rest - 25 + 1) = some (scenario ++ ['-'], timestamp) := by
  obtain ⟨scenario, char, timestamp, heq, hoffset, hvalue⟩ :=
    exists_split_of_ascii hdash (by decide)
  have hchar : char = '-' := by
    rw [← Char.ofNat_toNat char, hvalue]
    rfl
  subst hchar
  refine ⟨scenario, timestamp, heq, ?_, ?_⟩
  · rw [← hoffset, heq]
    exact splitAtByte_append scenario _
  · have hafter := splitAtByte_append (scenario ++ ['-']) timestamp
    rw [byteLen_append, List.append_assoc] at hafter
    rw [← hoffset, heq]
    exact hafter

/-- The name without the prefix that is asked for. -/
theorem scenarioFromResultDirectory_eq (rest : List Char) (directoryPrefix : Option (List Char)) :
    ∃ directory : String,
      scenarioFromResultDirectory (directoryPrefix.getD [] ++ rest) directoryPrefix = (do
        bailIf (byteLen rest ≤ 25) (.rejected s!"official result directory {
          directory} has no scenario or timestamp")
        bailIf ((utf8Bytes rest)[byteLen rest - 25]? ≠ some '-'.toUInt8)
          (.rejected s!"official result directory {
            directory} has an invalid timestamp separator")
        let some (scenario, _) := splitAtByte rest (byteLen rest - 25) | .error .panicked
        let some (_, timestamp) := splitAtByte rest (byteLen rest - 25 + 1) | .error .panicked
        bailIf (isNormalizedIsoTimestamp timestamp = false)
          (.rejected s!"official result directory {
            directory} has an invalid normalized timestamp")
        match validateScenarioName scenario with
        | .error message =>
            .error (.rejected s!"invalid scenario in official result directory {
              directory}: {message}")
        | .ok () => .ok scenario) := by
  refine ⟨(String.ofList (directoryPrefix.getD [] ++ rest)).quote, ?_⟩
  unfold scenarioFromResultDirectory
  cases directoryPrefix with
  | none => rfl
  | some expected =>
      have hbegins : expected <+: expected ++ rest := List.prefix_append expected rest
      simp only [Option.getD_some, hbegins, if_true, List.drop_left]
      rfl

/-- A name with the prefix never panics, and decodes only to what was written. -/
theorem scenarioFromResultDirectory_rest (rest : List Char)
    (directoryPrefix : Option (List Char)) :
    scenarioFromResultDirectory (directoryPrefix.getD [] ++ rest) directoryPrefix ≠
        .error .panicked ∧
      ∀ scenario, scenarioFromResultDirectory (directoryPrefix.getD [] ++ rest) directoryPrefix =
          .ok scenario →
        validateScenarioName scenario = .ok () ∧ ∃ timestamp,
          isNormalizedIsoTimestamp timestamp = true ∧ rest = scenario ++ '-' :: timestamp := by
  obtain ⟨directory, heq⟩ := scenarioFromResultDirectory_eq rest directoryPrefix
  rw [heq]
  by_cases hshort : byteLen rest ≤ 25
  · simp [hshort, bailIf, bind, Except.bind]
  by_cases hdash : (utf8Bytes rest)[byteLen rest - 25]? = some '-'.toUInt8
  · obtain ⟨scenario, timestamp, hrest, hsplit, hafter⟩ := exists_split_of_dash hdash
    simp only [hshort, hdash, hsplit, hafter, ne_eq, not_true_eq_false, bailIf_false, bind,
      Except.bind]
    cases htimestamp : isNormalizedIsoTimestamp timestamp with
    | false => simp [bailIf]
    | true =>
        cases hvalid : validateScenarioName scenario with
        | error message => simp [bailIf]
        | ok _ =>
            simp only [bailIf_false, Bool.true_eq_false]
            refine ⟨by simp, fun other hother => ?_⟩
            cases hother
            exact ⟨hvalid, timestamp, htimestamp, hrest⟩
  · simp [hshort, hdash, bailIf, bind, Except.bind]

/-- A directory name is decoded exactly when it is the encoding of a valid scenario. -/
theorem scenarioFromResultDirectory_ok_iff {directory scenario : List Char}
    {directoryPrefix : Option (List Char)} :
    scenarioFromResultDirectory directory directoryPrefix = .ok scenario ↔
      validateScenarioName scenario = .ok () ∧ ∃ timestamp,
        isNormalizedIsoTimestamp timestamp = true ∧
          directory = resultDirectoryName (directoryPrefix.getD []) scenario timestamp := by
  constructor
  · intro hok
    by_cases hbegins : directoryPrefix.getD [] <+: directory
    · obtain ⟨rest, rfl⟩ := hbegins
      obtain ⟨hvalid, timestamp, htimestamp, rfl⟩ :=
        (scenarioFromResultDirectory_rest rest directoryPrefix).2 scenario hok
      exact ⟨hvalid, timestamp, htimestamp, rfl⟩
    · cases directoryPrefix with
      | none => exact absurd List.nil_prefix hbegins
      | some expected =>
          rw [Option.getD_some] at hbegins
          simp [scenarioFromResultDirectory, hbegins, bind, Except.bind] at hok
  · rintro ⟨hvalid, timestamp, htimestamp, rfl⟩
    cases directoryPrefix with
    | none => exact scenarioFromResultDirectory_written [] hvalid htimestamp
    | some expected => exact scenarioFromResultDirectory_written expected hvalid htimestamp

/-- The decoder never slices within a character. -/
theorem scenarioFromResultDirectory_ne_panicked (directory : List Char)
    (directoryPrefix : Option (List Char)) :
    scenarioFromResultDirectory directory directoryPrefix ≠ .error .panicked := by
  by_cases hbegins : directoryPrefix.getD [] <+: directory
  · obtain ⟨rest, rfl⟩ := hbegins
    exact (scenarioFromResultDirectory_rest rest directoryPrefix).1
  · cases directoryPrefix with
    | none => exact absurd List.nil_prefix hbegins
    | some expected =>
        rw [Option.getD_some] at hbegins
        simp [scenarioFromResultDirectory, hbegins, bind, Except.bind]

/-- Decoding a directory name never panics. It gives the scenarios that the name is written
for and no others, and a written name is that of one scenario. -/
theorem scenarioFromResultDirectory_exact (directory : List Char)
    (directoryPrefix : Option (List Char)) :
    scenarioFromResultDirectory directory directoryPrefix ≠ .error .panicked ∧
      (∀ scenario, scenarioFromResultDirectory directory directoryPrefix = .ok scenario ↔
        validateScenarioName scenario = .ok () ∧ ∃ timestamp,
          isNormalizedIsoTimestamp timestamp = true ∧
            directory = resultDirectoryName (directoryPrefix.getD []) scenario timestamp) ∧
      ∀ scenario other timestamp otherTimestamp,
        validateScenarioName scenario = .ok () → validateScenarioName other = .ok () →
        isNormalizedIsoTimestamp timestamp = true →
        isNormalizedIsoTimestamp otherTimestamp = true →
        resultDirectoryName (directoryPrefix.getD []) scenario timestamp =
          resultDirectoryName (directoryPrefix.getD []) other otherTimestamp →
        scenario = other := by
  refine ⟨scenarioFromResultDirectory_ne_panicked directory directoryPrefix,
    fun scenario => scenarioFromResultDirectory_ok_iff, ?_⟩
  intro scenario other timestamp otherTimestamp hvalid hother htimestamp hotherTimestamp hsame
  have hfirst : scenarioFromResultDirectory
      (resultDirectoryName (directoryPrefix.getD []) scenario timestamp) directoryPrefix =
        .ok scenario := scenarioFromResultDirectory_ok_iff.mpr ⟨hvalid, timestamp, htimestamp, rfl⟩
  have hsecond : scenarioFromResultDirectory
      (resultDirectoryName (directoryPrefix.getD []) scenario timestamp) directoryPrefix =
        .ok other :=
    scenarioFromResultDirectory_ok_iff.mpr ⟨hother, otherTimestamp, hotherTimestamp, hsame⟩
  rw [hfirst] at hsecond
  cases hsecond
  rfl

end CfIntegration.Conformance
