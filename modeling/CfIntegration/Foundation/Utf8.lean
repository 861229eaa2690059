import Mathlib.Data.String.Basic

/-! # Decoding UTF-8

Bytes are decoded one character at a time. Where the bytes form no character, the
longest beginning of one that they do form is dropped as a whole, so that a lossy
decoder shows one replacement character for it.
-/

namespace CfIntegration.Utf8

/-- The ranges of the bytes that must follow a first byte. -/
def followers (first : UInt8) : Option (List (UInt8 × UInt8)) :=
  if first < 0x80 then some []
  else if 0xc2 ≤ first ∧ first ≤ 0xdf then some [(0x80, 0xbf)]
  else if first = 0xe0 then some [(0xa0, 0xbf), (0x80, 0xbf)]
  else if first = 0xed then some [(0x80, 0x9f), (0x80, 0xbf)]
  else if 0xe1 ≤ first ∧ first ≤ 0xef then some [(0x80, 0xbf), (0x80, 0xbf)]
  else if first = 0xf0 then some [(0x90, 0xbf), (0x80, 0xbf), (0x80, 0xbf)]
  else if first = 0xf4 then some [(0x80, 0x8f), (0x80, 0xbf), (0x80, 0xbf)]
  else if 0xf1 ≤ first ∧ first ≤ 0xf3 then some [(0x80, 0xbf), (0x80, 0xbf), (0x80, 0xbf)]
  else none

/-- Take bytes as long as they are in their ranges; the flag says that none is missing. -/
def takeFollowers : List (UInt8 × UInt8) → List UInt8 → Bool × List UInt8 × List UInt8
  | [], bytes => (true, [], bytes)
  | _ :: _, [] => (false, [], [])
  | (low, high) :: ranges, byte :: bytes =>
      if low ≤ byte ∧ byte ≤ high then
        let (complete, taken, rest) := takeFollowers ranges bytes
        (complete, byte :: taken, rest)
      else (false, [], byte :: bytes)

/-- The bits that the first byte contributes. -/
def firstBits (first : UInt8) : Nat → Nat
  | 0 => first.toNat
  | 1 => first.toNat % 32
  | 2 => first.toNat % 16
  | _ => first.toNat % 8

def scalar (first : UInt8) (taken : List UInt8) : Nat :=
  taken.foldl (fun bits byte => bits * 64 + byte.toNat % 64) (firstBits first taken.length)

/-- The character at the beginning, if there is one, and the bytes after it or after
what is dropped. -/
def decodeFirst (first : UInt8) (bytes : List UInt8) : Option Char × List UInt8 :=
  match followers first with
  | none => (none, bytes)
  | some ranges =>
      match takeFollowers ranges bytes with
      | (true, taken, rest) => (some (Char.ofNat (scalar first taken)), rest)
      | (false, _, rest) => (none, rest)

/-- The characters of the first `fuel` steps, `none` where bytes were dropped. -/
def decodeSteps : Nat → List UInt8 → List (Option Char)
  | 0, _ => []
  | _ + 1, [] => []
  | fuel + 1, first :: bytes =>
      (decodeFirst first bytes).1 :: decodeSteps fuel (decodeFirst first bytes).2

/-- Every step consumes a byte. -/
def decode (bytes : List UInt8) : List (Option Char) := decodeSteps bytes.length bytes

def fromUtf8 (bytes : List UInt8) : Option (List Char) := (decode bytes).mapM id

def fromUtf8Lossy (bytes : List UInt8) : List Char := (decode bytes).map (·.getD '\uFFFD')

/-- Taking the following bytes leaves no more than there was. -/
theorem takeFollowers_length (ranges : List (UInt8 × UInt8)) (bytes : List UInt8) :
    (takeFollowers ranges bytes).2.2.length ≤ bytes.length := by
  induction ranges generalizing bytes with
  | nil => exact le_refl _
  | cons range ranges ih =>
      cases bytes with
      | nil => exact le_refl _
      | cons byte bytes =>
          rw [takeFollowers]
          split
          · exact (ih bytes).trans (Nat.le_succ _)
          · exact le_refl _

/-- Decoding a character leaves no more bytes than there were. -/
theorem decodeFirst_length (first : UInt8) (bytes : List UInt8) :
    (decodeFirst first bytes).2.length ≤ bytes.length := by
  unfold decodeFirst
  cases followers first with
  | none => exact le_refl _
  | some ranges =>
      have hlength := takeFollowers_length ranges bytes
      dsimp only
      split
      next taken rest heq => rwa [heq] at hlength
      next taken rest heq => rwa [heq] at hlength

/-- More steps than there are bytes change nothing. -/
theorem decodeSteps_eq {fuel : Nat} {bytes : List UInt8} (hfuel : bytes.length ≤ fuel) :
    decodeSteps fuel bytes = decode bytes := by
  induction fuel using Nat.strong_induction_on generalizing bytes with
  | _ fuel ih =>
      cases bytes with
      | nil => cases fuel <;> rfl
      | cons first bytes =>
          obtain ⟨fuel, rfl⟩ : ∃ more, fuel = more + 1 :=
            ⟨fuel - 1, by rw [List.length_cons] at hfuel; omega⟩
          rw [List.length_cons] at hfuel
          have hrest := decodeFirst_length first bytes
          rw [decode, List.length_cons, decodeSteps, decodeSteps,
            ih fuel (by omega) (by omega), ih bytes.length (by omega) hrest]

/-- One step of the decoder. -/
theorem decode_cons (first : UInt8) (bytes : List UInt8) :
    decode (first :: bytes) =
      (decodeFirst first bytes).1 :: decode (decodeFirst first bytes).2 := by
  rw [decode, List.length_cons, decodeSteps, decodeSteps_eq (decodeFirst_length first bytes)]

/-- Bytes of ASCII characters stand for themselves. -/
theorem decode_ascii {first : UInt8} (hascii : first < 0x80) (bytes : List UInt8) :
    decode (first :: bytes) = some (Char.ofNat first.toNat) :: decode bytes := by
  have hstep : decodeFirst first bytes = (some (Char.ofNat first.toNat), bytes) := by
    rw [decodeFirst, followers, if_pos hascii]
    rfl
  rw [decode_cons, hstep]

/-- The bytes that follow in a character are not ASCII. -/
theorem followers_high {first : UInt8} {ranges : List (UInt8 × UInt8)}
    (hranges : followers first = some ranges) : ∀ range ∈ ranges, 0x80 ≤ range.1 := by
  unfold followers at hranges
  split_ifs at hranges <;> cases hranges <;> simp

/-- An ASCII byte follows no other byte. -/
theorem takeFollowers_append {ranges : List (UInt8 × UInt8)}
    (hranges : ∀ range ∈ ranges, 0x80 ≤ range.1) {next : UInt8} (hascii : next < 0x80)
    (bytes rest : List UInt8) :
    takeFollowers ranges (bytes ++ next :: rest) =
      ((takeFollowers ranges bytes).1, (takeFollowers ranges bytes).2.1,
        (takeFollowers ranges bytes).2.2 ++ next :: rest) := by
  induction ranges generalizing bytes with
  | nil => rfl
  | cons range ranges ih =>
      obtain ⟨low, high⟩ := range
      cases bytes with
      | nil =>
          have hlow : ¬ (low ≤ next ∧ next ≤ high) := fun hnext =>
            absurd (UInt8.lt_of_lt_of_le hascii (hranges _ List.mem_cons_self))
              (UInt8.not_lt.mpr hnext.1)
          rw [List.nil_append, takeFollowers, takeFollowers, if_neg hlow]
          rfl
      | cons byte bytes =>
          rw [List.cons_append, takeFollowers, takeFollowers]
          split
          · rw [ih fun range hrange => hranges range (List.mem_cons_of_mem _ hrange)]
          · rfl

/-- A character is decoded the same before an ASCII byte. -/
theorem decodeFirst_append {next : UInt8} (hascii : next < 0x80) (first : UInt8)
    (bytes rest : List UInt8) :
    decodeFirst first (bytes ++ next :: rest) =
      ((decodeFirst first bytes).1, (decodeFirst first bytes).2 ++ next :: rest) := by
  unfold decodeFirst
  cases hranges : followers first with
  | none => rfl
  | some ranges =>
      dsimp only
      rw [takeFollowers_append (followers_high hranges) hascii]
      rcases takeFollowers ranges bytes with ⟨_ | _, taken, left⟩ <;> rfl

/-- Bytes are decoded apart from what an ASCII byte begins. -/
theorem decode_append_ascii {next : UInt8} (hascii : next < 0x80) (bytes rest : List UInt8) :
    decode (bytes ++ next :: rest) = decode bytes ++ decode (next :: rest) := by
  induction hlength : bytes.length using Nat.strong_induction_on generalizing bytes with
  | _ length ih =>
      cases bytes with
      | nil => rfl
      | cons first bytes =>
          have hshorter := decodeFirst_length first bytes
          rw [List.length_cons] at hlength
          rw [List.cons_append, decode_cons, decode_cons first, decodeFirst_append hascii,
            ih _ (by omega) _ rfl, List.cons_append]

end CfIntegration.Utf8
