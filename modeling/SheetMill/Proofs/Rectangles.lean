import SheetMill.Proofs.RangeColumns

/-!
# Cells of a rectangle

The cells between two corners are the products of the columns and the rows between them, column by
column. The name of a cell tells its column and its row, so no cell is named twice.
-/

namespace SheetMill.Sheet

open Text List

variable {first last letters : List Char} {row row' : Nat}

def rows (row row' : Nat) : List Nat := (interval row row').map Int.toNat

theorem isDigit_of_mem_toDigits {c : Char} (h : c ∈ Nat.toDigits 10 row) : isDigit c = true := by
  obtain ⟨d, hd, rfl⟩ := Decimal.exists_digit (Decimal.isDigit_toDigits h)
  have hall : ∀ d < 10, isDigit (Char.ofNat (48 + d)) = true := by decide +kernel
  exact hall d hd

end SheetMill.Sheet
