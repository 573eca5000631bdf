/-!
# Bytes in hexadecimal

Two digits for each byte, the high one first. Small digits are written, and either kind is read.

- `hex`, `bytesOfHex`: writing and reading;
- `bytesOfHex_hex`: what was written reads as the same bytes.
-/

namespace SlotServer.Text

/-- The digit of a number below 16. -/
def hexDigit (n : Nat) : Char :=
  if n < 10 then Char.ofNat (48 + n) else Char.ofNat (87 + n)

/-- The number of a digit, zero for anything else. -/
def hexValue (c : Char) : Nat :=
  if '0' ≤ c && c ≤ '9' then c.toNat - 48
  else if 'a' ≤ c && c ≤ 'f' then c.toNat - 87
  else if 'A' ≤ c && c ≤ 'F' then c.toNat - 55
  else 0

/-- The digits of some bytes. -/
def hexDigits : List UInt8 → List Char
  | [] => []
  | b :: rest => hexDigit (b.toNat / 16) :: hexDigit (b.toNat % 16) :: hexDigits rest

/-- The bytes of pairs of digits. A last digit that is alone counts for nothing. -/
def bytesOfDigits : List Char → List UInt8
  | high :: low :: rest => UInt8.ofNat (16 * hexValue high + hexValue low) :: bytesOfDigits rest
  | _ => []

/-- The text of some bytes. -/
def hex (bytes : List UInt8) : String := String.ofList (hexDigits bytes)

/-- The bytes of a text. -/
def bytesOfHex (s : String) : List UInt8 := bytesOfDigits s.toList

theorem hexValue_hexDigit {n : Nat} (h : n < 16) : hexValue (hexDigit n) = n := by
  have : ∀ n : Fin 16, hexValue (hexDigit n) = n := by decide
  exact this ⟨n, h⟩

theorem bytesOfHex_hex (bytes : List UInt8) : bytesOfHex (hex bytes) = bytes := by
  simp only [bytesOfHex, hex, String.toList_ofList]
  induction bytes with
  | nil => rfl
  | cons b rest ih =>
    have hb := b.toNat_lt
    rw [hexDigits, bytesOfDigits, ih, hexValue_hexDigit (by omega), hexValue_hexDigit (by omega)]
    congr 1
    rw [Nat.div_add_mod, UInt8.ofNat_toNat]

end SlotServer.Text
