import CfIntegration.Foundation.ExtendedRegex
import CfIntegration.Infrastructure.Checkout

/-! # The origin of a checkout

A checkout is only taken as one of the requested repository if git finds an origin with
this URL in its configuration. The URL is passed as a pattern, and the pattern matches
the URL and nothing else.
-/

namespace CfIntegration.Infrastructure.Checkout

open ExtendedRegex (Regex compile compile_anchored found_anchored metacharacters quotable quote)

/-- One value of a git configuration. -/
structure ConfigEntry where
  key : List Char
  value : List Char

/-- A value pattern is negated by an exclamation mark. -/
def MatchesValue (pattern value : List Char) : Prop :=
  match pattern with
  | '!' :: negated => ∃ regex, compile negated = some regex ∧ ¬ regex.Found value
  | _ => ∃ regex, compile pattern = some regex ∧ regex.Found value

/-- The command finds a value whose key and text match. -/
def GetRegexp (entries : List ConfigEntry) (keyPattern valuePattern : List Char) : Prop :=
  ∃ entry ∈ entries, (∃ regex, compile keyPattern = some regex ∧ regex.Found entry.key) ∧
    MatchesValue valuePattern entry.value

/-- The arguments are those of a query that succeeds in a repository with this
configuration. -/
def QuerySucceeds (entries : List ConfigEntry) (args : List OsString) : Prop :=
  ∃ directory keyPattern valuePattern,
    args = [osString "-C", directory, osString "config", osString "--get-regexp",
      keyPattern.map OsUnit.char, valuePattern.map OsUnit.char] ∧
    GetRegexp entries keyPattern valuePattern

/-- The characters that `exact_git_regex` quotes. -/
def quotedCharacters : List Char :=
  ['.', '^', '$', '*', '+', '?', '(', ')', '[', ']', '\x7b', '\x7d', '|', '\\']

theorem metacharacters_subset : metacharacters ⊆ quotedCharacters := by decide

theorem quotedCharacters_subset : quotedCharacters ⊆ quotable := by decide

/-- The anchored pattern of a text. -/
def anchored (text : List Char) : List Char :=
  '^' :: text.flatMap (quote quotedCharacters) ++ ['$']

theorem toStringLossy_char (text : List Char) : toStringLossy (text.map OsUnit.char) = text := by
  rw [toStringLossy, List.map_map]
  exact List.map_id _

theorem exactGitRegex_char (text : List Char) :
    exactGitRegex (text.map OsUnit.char) = (anchored text).map OsUnit.char := by
  rw [exactGitRegex, toStringLossy_char]
  rfl

/-- The anchored pattern compiles and finds exactly the text it was made from. -/
theorem compile_anchored_iff (text other : List Char) :
    (∃ regex, compile (anchored text) = some regex ∧ regex.Found other) ↔ other = text := by
  rw [anchored, compile_anchored metacharacters_subset quotedCharacters_subset]
  simp [found_anchored]

/-- The pattern for the key names one key. -/
theorem keyPattern_eq : "^remote\\.origin\\.url$".toList = anchored "remote.origin.url".toList := by
  decide

theorem getRegexp_origin (entries : List ConfigEntry) (text : List Char) :
    GetRegexp entries "^remote\\.origin\\.url$".toList (anchored text) ↔
      ∃ entry ∈ entries, entry.key = "remote.origin.url".toList ∧ entry.value = text := by
  unfold GetRegexp
  apply exists_congr
  intro entry
  apply and_congr_right
  intro _
  rw [keyPattern_eq, compile_anchored_iff]
  apply and_congr_right
  intro _
  -- The pattern begins with an anchor, so it is not a negated one.
  exact compile_anchored_iff text entry.value

/-- The pattern of a UTF-8 value is found in this value and in no other text, and the
probe with it succeeds in exactly the repositories that have it as an origin URL. -/
theorem originMatchProbe_exact (value : List Char) :
    (∃ pattern regex, exactGitRegex (value.map OsUnit.char) = pattern.map OsUnit.char ∧
      compile pattern = some regex ∧ ∀ text, regex.Found text ↔ text = value) ∧
    ∀ (request : CheckoutRequest) (entries : List ConfigEntry), QuerySucceeds entries
        (originMatchProbe { request with repository := value.map OsUnit.char }).args ↔
      ∃ entry ∈ entries, entry.key = "remote.origin.url".toList ∧ entry.value = value := by
  constructor
  · refine ⟨anchored value, _, exactGitRegex_char value,
      compile_anchored metacharacters_subset quotedCharacters_subset value, ?_⟩
    intro text
    exact found_anchored
  · intro request entries
    have hinjective : Function.Injective (List.map OsUnit.char) :=
      List.map_injective_iff.mpr fun _ _ heq => OsUnit.char.inj heq
    have hargs : (originMatchProbe { request with repository := value.map OsUnit.char }).args =
        [osString "-C", pathText request.directory, osString "config", osString "--get-regexp",
          "^remote\\.origin\\.url$".toList.map OsUnit.char,
          (anchored value).map OsUnit.char] := by
      rw [← exactGitRegex_char]
      rfl
    rw [hargs, ← getRegexp_origin]
    constructor
    · intro hquery
      obtain ⟨directory, keyPattern, valuePattern, heq, hfound⟩ := hquery
      simp only [List.cons.injEq, true_and, and_true] at heq
      obtain ⟨-, hkey, hvalue⟩ := heq
      rwa [hinjective hkey, hinjective hvalue]
    · intro hfound
      exact ⟨_, _, _, rfl, hfound⟩

end CfIntegration.Infrastructure.Checkout
