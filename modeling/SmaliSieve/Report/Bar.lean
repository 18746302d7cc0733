/-
  SmaliSieve.Report.Bar

  Bars that show a part of a whole. The share is taken in floating point, as a
  percentage first, and rounded to the nearest number of marks, halves up.
-/

namespace SmaliSieve.Report

/-- The number of marks of a bar. -/
def barWidth : Nat := 20

/-- `part` of `whole` in percent; nothing of nothing is nothing. -/
def percentage (part whole : Nat) : Float :=
  if whole = 0 then 0 else Float.ofNat part * 100 / Float.ofNat whole

/-- The number of filled marks in a bar of `width` marks. -/
def filledMarks (part whole width : Nat) : Nat :=
  min width (percentage part whole / 100 * Float.ofNat width).round.toUInt64.toNat

/-- The bar for `part` of `whole`. -/
def bar (part whole : Nat) : String :=
  let filled := filledMarks part whole barWidth
  String.ofList (List.replicate filled '█' ++ List.replicate (barWidth - filled) '░')

end SmaliSieve.Report
