import Mathlib.Data.List.Lex
import Mathlib.Order.Lattice
import Mathlib.Data.String.Basic
import CfIntegration.Foundation.Utf8

/-! # File names

A file system names its entries by bytes, which may or may not be UTF-8 text.
Programs compare names with text and ask for the text of a name.
-/

namespace CfIntegration

/-- Names that may be text. -/
class FileName (ν : Type) where
  ofText : String → ν
  /-- The text of a name, if it is text. -/
  toStr : ν → Option String
  toStr_eq_some : ∀ {name text}, toStr name = some text ↔ name = ofText text
  /-- The text of a name, with a replacement for what is not text. -/
  display : ν → String

namespace FileName

instance : FileName String where
  ofText text := text
  toStr := some
  toStr_eq_some := Option.some_inj
  display text := text

@[simp] theorem toStr_string (text : String) : toStr text = some text := rfl

/-- A name as the operating system gives it. -/
structure OsName where
  bytes : List UInt8
  deriving DecidableEq

/-- Names are ordered by their bytes. -/
instance : LinearOrder OsName :=
  LinearOrder.lift' (fun name => name.bytes.map UInt8.toNat) fun first second heq => by
    have hbytes : first.bytes = second.bytes :=
      List.map_injective_iff.mpr (fun _ _ => UInt8.toNat_inj.mp) heq
    rcases first with ⟨bytes⟩
    rw [show bytes = second.bytes from hbytes]

instance : FileName OsName where
  ofText text := ⟨text.toUTF8.data.toList⟩
  toStr name := String.fromUTF8? ⟨name.bytes.toArray⟩
  toStr_eq_some := by
    intro name text
    rcases name with ⟨bytes⟩
    unfold String.fromUTF8?
    split
    next hvalid =>
      constructor
      · intro hsome
        cases hsome
        simp [String.fromUTF8]
      · intro hname
        cases hname
        simp [String.fromUTF8]
    next hinvalid =>
      constructor
      · intro hsome
        cases hsome
      · intro hname
        cases hname
        exact absurd text.isValidUTF8 (by simpa using hinvalid)
  display name := String.ofList (Utf8.fromUtf8Lossy name.bytes)

theorem toStr_ofText {ν : Type} [FileName ν] (text : String) :
    toStr (ofText text : ν) = some text := toStr_eq_some.mpr rfl

/-- A text determines its file name. -/
theorem ofText_injective {ν : Type} [FileName ν] : Function.Injective (ofText : String → ν) := by
  intro first second heq
  have htext := @toStr_ofText ν _ first
  rw [heq, toStr_ofText] at htext
  exact (Option.some.inj htext).symm

end FileName

end CfIntegration
