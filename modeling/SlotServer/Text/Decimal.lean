/-!
# Decimal numbers

Whole numbers in decimal digits, with an optional sign and a range. Nothing else is read: no blanks, no separators,
no digits but the ten ASCII ones.
-/

namespace SlotServer.Text

/-- The value of a text of one or more digits. -/
def digits? (cs : List Char) : Option Nat :=
  if cs.isEmpty || !cs.all Char.isDigit then none
  else some (cs.foldl (fun n c => 10 * n + (c.toNat - '0'.toNat)) 0)

/-- A number without a minus sign that is at most `most`. -/
def natural? (most : Nat) (s : String) : Option Nat :=
  let cs := s.toList
  let body := match cs with
    | '+' :: rest => rest
    | _ => cs
  (digits? body).filter (· ≤ most)

/-- A number from `least` to `most`, with either sign. -/
def integer? (least most : Int) (s : String) : Option Int :=
  let value := match s.toList with
    | '+' :: rest => (digits? rest).map Int.ofNat
    | '-' :: rest => (digits? rest).map fun n => -Int.ofNat n
    | cs => (digits? cs).map Int.ofNat
  value.filter fun n => least ≤ n && n ≤ most

/-- The greatest number of `bits` bits. -/
def greatest (bits : Nat) : Nat := (1 <<< bits) - 1

end SlotServer.Text
