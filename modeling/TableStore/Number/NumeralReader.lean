import TableStore.Number.Decimal

/-!
# Readers of numerals

How documents are read is left to a library where a numeral is no sixty-four bit integer. It may
read the numeral as a number that is not the nearest one: what holds of a number that was written
and read again depends on the reader.
-/
namespace TableStore

structure NumeralReader where
  /-- The number that a numeral is read as, or none if it is refused. -/
  read? : String → Option Binary64

namespace NumeralReader

/-- Reads every numeral as the nearest number. -/
def exact : NumeralReader where
  read? numeral := (Decimal.read numeral.toList).map Decimal.toBinary64

end NumeralReader

end TableStore
