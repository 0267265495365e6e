import Mathlib.Data.List.Basic
import RosInterface.MessageType.Signature

namespace RosInterface

/-! # The form of digests

Digests are written with thirty-two hexadecimal digits, so that none of the characters that give a
line its structure can occur in one, and no digest is the name of a built-in type.
-/

/-- The characters that bytes are written with. -/
def isSumDigit (c : Char) : Bool :=
  ('0' ≤ c && c ≤ '9') || ('a' ≤ c && c ≤ 'f')

/-- A text of the form of a digest. -/
structure IsHexSum (text : String) : Prop where
  length : text.toList.length = 32
  digits : ∀ c ∈ text.toList, isSumDigit c = true

theorem IsHexSum.not_mem {text : String} (h : IsHexSum text) {c : Char}
    (hc : isSumDigit c = false) : c ∉ text.toList := by
  intro hmem
  rw [h.digits c hmem] at hc
  cases hc

namespace Md5

/-- Two texts collide if they differ and have one digest. -/
def Collide (text other : String) : Prop :=
  text ≠ other ∧ hexDigest text = hexDigest other

theorem length_littleEndian (count n : Nat) : (littleEndian count n).length = count := by
  induction count generalizing n with
  | zero => rfl
  | succ count ih => rw [littleEndian, List.length_cons, ih]

theorem length_digest (message : List UInt8) : (digest message).length = 16 := by
  simp only [digest, List.length_flatMap, length_littleEndian]
  rfl

theorem isSumDigit_digitChar {digit : Nat} (hdigit : digit < 16) :
    isSumDigit (Nat.digitChar digit) = true := by
  have hall : ∀ digit : Fin 16, isSumDigit (Nat.digitChar digit) = true := by decide
  exact hall ⟨digit, hdigit⟩

theorem isHexSum_hexDigest (text : String) : IsHexSum (hexDigest text) := by
  have hchars : (hexDigest text).toList = (digest text.toUTF8.toList).flatMap hexByte := by
    rw [hexDigest, String.toList_ofList]
  constructor
  · rw [hchars, List.length_flatMap]
    show ((digest text.toUTF8.toList).map fun _ => 2).sum = 32
    rw [List.map_const', length_digest]
    rfl
  · intro c hc
    rw [hchars] at hc
    rcases List.mem_flatMap.mp hc with ⟨byte, -, hc⟩
    have hbyte := byte.toNat_lt
    simp only [hexByte, List.mem_cons, List.not_mem_nil, or_false] at hc
    rcases hc with rfl | rfl
    · exact isSumDigit_digitChar (by omega)
    · exact isSumDigit_digitChar (by omega)

end Md5

end RosInterface
