import Workflow.Decimal.Shortest

/-!
# Layouts of decimals

A layout says how the shortest decimal of a number is written: for which exponents with a decimal
point and for which in exponent notation, and how the exponent's sign is shown. A number written
with a point always has a digit on both sides of it.
-/

namespace Workflow

/-- How a number is laid out as text. -/
structure Decimal.Layout where
  /-- The least exponent of the leading digit that is written with a decimal point. -/
  least : Int
  /-- The first exponent of the leading digit that is no longer written so. -/
  limit : Int
  /-- What stands before a positive exponent. -/
  plus : String
  /-- Whether the upper of two equally near decimals is taken, instead of the even one. -/
  tieUp : Bool

namespace Decimal

def zeros (n : Nat) : String := String.ofList (List.replicate n '0')

/-- The digits with a decimal point after the digit of exponent zero; `lead` is the exponent of the
first digit. -/
def positional (digits : String) (lead : Int) : String :=
  if lead < 0 then "0." ++ zeros ((-lead).toNat - 1) ++ digits
  else
    let whole := lead.toNat + 1
    if digits.length ≤ whole then digits ++ zeros (whole - digits.length) ++ ".0"
    else
      let cs := digits.toList
      String.ofList (cs.take whole) ++ "." ++ String.ofList (cs.drop whole)

def Layout.scientific (layout : Layout) (digits : String) (lead : Int) : String :=
  let mantissa := match digits.toList with
    | [] => ""
    | [c] => String.singleton c
    | c :: cs => String.singleton c ++ "." ++ String.ofList cs
  let sign := if lead < 0 then "-" else layout.plus
  mantissa ++ "e" ++ sign ++ toString lead.natAbs

def Layout.text (layout : Layout) (d : Decimal) : String :=
  if d.digits == 0 then "0.0"
  else
    let digits := String.ofList (Nat.toDigits 10 d.digits)
    let lead := d.exponent + (digits.length : Int) - 1
    if layout.least ≤ lead && lead < layout.limit then positional digits lead
    else layout.scientific digits lead

def Layout.number (layout : Layout) (x : Float) : String :=
  if x.isNaN then "NaN"
  else
    let sign := if x.toBits.toNat / Nat.pow 2 63 == 1 then "-" else ""
    if x.isInf then sign ++ "inf"
    else sign ++ layout.text (shortest layout.tieUp x.toBits)

end Decimal

end Workflow
