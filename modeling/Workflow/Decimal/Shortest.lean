/-!
# Shortest decimals

A binary floating-point number stands for the interval of reals that round to it. Its shortest
decimal is the one with the fewest digits in that interval; among those with that many digits it is
the nearest to the number, and an exact tie is left to the caller.

Everything is computed in exact natural-number arithmetic on the number's mantissa and exponent.
-/

namespace Workflow

structure Decimal where
  digits : Nat
  exponent : Int
deriving DecidableEq, Repr

namespace Decimal

/-- Moves trailing zeros of the digits into the exponent; `fuel` bounds how many. -/
def stripZeros : Nat → Decimal → Decimal
  | 0, d => d
  | fuel + 1, d =>
    if d.digits != 0 && d.digits % 10 == 0 then stripZeros fuel ⟨d.digits / 10, d.exponent + 1⟩
    else d

/-- A positive number `mantissa * 2 ^ exponent` together with the interval of reals that round to
it, all in quarters of a unit in the last place. -/
structure Interval where
  low : Nat
  value : Nat
  high : Nat
  /-- The exponent of two of a quarter unit. -/
  quarter : Int
  /-- Whether the two ends themselves round to the number. -/
  closed : Bool

/-- The interval of the finite number with the given bits, its sign left out. The gap below a power
of two is half the gap above it, except at the bottom of the range. -/
def Interval.ofBits (bits : UInt64) : Interval :=
  let fraction : Nat := bits.toNat % Nat.pow 2 52
  let exponent : Nat := bits.toNat / Nat.pow 2 52 % Nat.pow 2 11
  let m : Nat := if exponent == 0 then fraction else fraction + Nat.pow 2 52
  let q : Int := if exponent == 0 then -1074 else (exponent : Int) - 1075
  { low := if fraction == 0 && exponent > 1 then 4 * m - 1 else 4 * m - 2
    value := 4 * m
    high := 4 * m + 2
    quarter := q - 2
    closed := m % 2 == 0 }

def power (base : Nat) (e : Int) : Nat × Nat :=
  if 0 ≤ e then (Nat.pow base e.toNat, 1) else (1, Nat.pow base (-e).toNat)

def width (n : Nat) : Nat := (Nat.toDigits 10 n).length

def leading (num den : Nat) : Int :=
  if den ≤ num then (width (num / den) : Int) - 1
  else
    let j := width den - width num
    if den ≤ num * Nat.pow 10 j then -(j : Int) else -(j : Int) - 1

/-- The best point of the grid of multiples of `10 ^ e` in the interval, if there is one: of the two
neighbours of the number the nearer, of two equally near ones the upper or the even one. -/
def Interval.gridPoint (i : Interval) (tieUp : Bool) (e : Int) : Option Nat :=
  let (tenNum, tenDen) := power 10 e
  let (twoNum, twoDen) := power 2 i.quarter
  let step := tenNum * twoDen
  let unit := tenDen * twoNum
  let value := i.value * unit
  let below := value / step
  let hit (c : Nat) : Bool :=
    (i.low * unit < c * step || (i.closed && i.low * unit == c * step)) &&
      (c * step < i.high * unit || (i.closed && c * step == i.high * unit))
  let down := value - below * step
  let up := (below + 1) * step - value
  match hit below, hit (below + 1) with
  | false, false => none
  | true, false => some below
  | false, true => some (below + 1)
  | true, true =>
    if down < up then some below
    else if up < down then some (below + 1)
    else if tieUp || below % 2 == 1 then some (below + 1)
    else some below

/-- Tries ever finer grids, starting with that of `10 ^ e`. -/
def Interval.search (i : Interval) (tieUp : Bool) : Nat → Int → Decimal
  | 0, e => ⟨(i.gridPoint tieUp e).getD 0, e⟩
  | fuel + 1, e =>
    match i.gridPoint tieUp e with
    | some digits => ⟨digits, e⟩
    | none => i.search tieUp fuel (e - 1)

/-- The shortest decimal of the finite number with the given bits, its sign left out, without
trailing zeros. Seventeen digits tell any two numbers apart. -/
def shortest (tieUp : Bool) (bits : UInt64) : Decimal :=
  let i := Interval.ofBits bits
  if i.value == 0 then ⟨0, 0⟩
  else
    let (num, den) := power 2 i.quarter
    stripZeros 20 (i.search tieUp 16 (leading (i.value * num) den))

end Decimal

end Workflow
