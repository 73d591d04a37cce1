import Workflow.Json.Basic
import Workflow.Decimal.Read

/-!
# Reading JSON text

A strict reader: no text after the value, no byte order mark, no leading zeros, no raw control
characters in strings, no half of a surrogate pair. The caller may limit how deep arrays and objects
stand inside each other. Of repeated keys the last value stays, unless the caller keeps them all.
-/

namespace Workflow.Json.Reader

/-- Drops the blanks that JSON allows between its tokens. -/
def skipBlanks : List Char → List Char
  | [] => []
  | c :: cs => if c == ' ' || c == '\n' || c == '\t' || c == '\r' then skipBlanks cs else c :: cs

def digit? (c : Char) : Option Nat := if c.isDigit then some (c.toNat - 48) else none

def hexDigit? (c : Char) : Option Nat :=
  let n := c.toNat
  if 48 ≤ n && n ≤ 57 then some (n - 48)
  else if 97 ≤ n && n ≤ 102 then some (n - 87)
  else if 65 ≤ n && n ≤ 70 then some (n - 55)
  else none

def hexUnit? : List Char → Option (Nat × List Char)
  | a :: b :: c :: d :: rest => do
    let a ← hexDigit? a
    let b ← hexDigit? b
    let c ← hexDigit? c
    let d ← hexDigit? d
    some (((a * 16 + b) * 16 + c) * 16 + d, rest)
  | _ => none

/-- Reads what follows `\u`: one unit, or the two units of a surrogate pair. -/
def escapedUnit? (cs : List Char) : Option (Char × List Char) := do
  let (high, rest) ← hexUnit? cs
  if 0xD800 ≤ high && high ≤ 0xDBFF then
    match rest with
    | '\\' :: 'u' :: rest =>
      let (low, rest) ← hexUnit? rest
      if 0xDC00 ≤ low && low ≤ 0xDFFF then
        some (Char.ofNat (0x10000 + (high - 0xD800) * 0x400 + (low - 0xDC00)), rest)
      else none
    | _ => none
  else if 0xDC00 ≤ high && high ≤ 0xDFFF then none
  else some (Char.ofNat high, rest)

def escape? : List Char → Option (Char × List Char)
  | '"' :: rest => some ('"', rest)
  | '\\' :: rest => some ('\\', rest)
  | '/' :: rest => some ('/', rest)
  | 'b' :: rest => some (Char.ofNat 8, rest)
  | 'f' :: rest => some (Char.ofNat 12, rest)
  | 'n' :: rest => some ('\n', rest)
  | 'r' :: rest => some ('\r', rest)
  | 't' :: rest => some ('\t', rest)
  | 'u' :: rest => escapedUnit? rest
  | _ => none

/-- Reads a string after its opening quote; `out` holds the characters so far, last one first. -/
def string? : Nat → List Char → List Char → Option (String × List Char)
  | 0, _, _ => none
  | fuel + 1, out, cs =>
    match cs with
    | [] => none
    | '"' :: rest => some (String.ofList out.reverse, rest)
    | '\\' :: rest => do
      let (c, rest) ← escape? rest
      string? fuel (c :: out) rest
    | c :: rest => if c.toNat < 0x20 then none else string? fuel (c :: out) rest

/-- The largest significand that is kept; further digits only count. -/
def maxSignificand : Nat := Nat.pow 2 64 - 1

/-- Whether one more digit keeps the significand in range. -/
def hasRoom (significand d : Nat) : Bool := significand * 10 + d ≤ maxSignificand

/-- Reads the digits of a whole part: the significand, how many digits were dropped once it was
full, and the rest. -/
def wholeDigits : Nat → Nat → Bool → List Char → Nat × Nat × List Char
  | m, dropped, full, c :: cs =>
    match digit? c with
    | none => (m, dropped, c :: cs)
    | some d =>
      if full || !hasRoom m d then wholeDigits m (dropped + 1) true cs
      else wholeDigits (m * 10 + d) dropped false cs
  | m, dropped, _, [] => (m, dropped, [])

/-- Reads the digits after a decimal point: the significand, how many digits it took in, and the
rest. Digits after the first one that does not fit are ignored. -/
def fractionDigits : Nat → Nat → Bool → List Char → Nat × Nat × List Char
  | m, taken, full, c :: cs =>
    match digit? c with
    | none => (m, taken, c :: cs)
    | some d =>
      if full || !hasRoom m d then fractionDigits m taken true cs
      else fractionDigits (m * 10 + d) (taken + 1) false cs
  | m, taken, _, [] => (m, taken, [])

def exponentDigits : Nat → List Char → Nat × List Char
  | n, c :: cs =>
    match digit? c with
    | none => (n, c :: cs)
    | some d => exponentDigits (n * 10 + d) cs
  | n, [] => (n, [])

def startsWithDigit : List Char → Bool
  | c :: _ => c.isDigit
  | [] => false

/-- Exponents from here on are too large for any number but zero. -/
def exponentLimit : Nat := Nat.pow 2 31

/-- The number of a significand and an exponent written in the text. -/
def scaled? (negative : Bool) (m : Nat) (start : Int) (expNegative : Bool) (exp : Nat) :
    Option Json :=
  if exponentLimit ≤ exp then
    if m != 0 && !expNegative then none
    else some (.float (if negative then -0.0 else 0.0))
  else
    (Decimal.toFloat? negative m (if expNegative then start - exp else start + exp)).map .float

def exponent? (negative : Bool) (m : Nat) (start : Int) (cs : List Char) :
    Option (Json × List Char) := do
  let (expNegative, cs) := match cs with
    | '+' :: rest => (false, rest)
    | '-' :: rest => (true, rest)
    | _ => (false, cs)
  if !startsWithDigit cs then none
  else
    let (exp, rest) := exponentDigits 0 cs
    let j ← scaled? negative m start expNegative exp
    some (j, rest)

/-- Reads what follows the digits of a number with fraction or exponent, or of one too long for an
integer. -/
def float? (negative : Bool) (m : Nat) (exponent : Int) (cs : List Char) :
    Option (Json × List Char) :=
  match cs with
  | 'e' :: rest => exponent? negative m exponent rest
  | 'E' :: rest => exponent? negative m exponent rest
  | _ => (Decimal.toFloat? negative m exponent).map fun x => (.float x, cs)

def fraction? (negative : Bool) (m : Nat) (dropped : Nat) (cs : List Char) :
    Option (Json × List Char) :=
  if !startsWithDigit cs then none
  else
    let (m, taken, rest) := fractionDigits m 0 false cs
    float? negative m ((dropped : Int) - taken) rest

/-- The value of an integer whose digits all fit: a negative one out of range and minus zero are
floating-point numbers. -/
def integer (negative : Bool) (m : Nat) : Json :=
  if !negative then .int m
  else if m == 0 || Nat.pow 2 63 < m then .float (-(m.toUInt64.toFloat))
  else .int (-m)

def number? (negative : Bool) (cs : List Char) : Option (Json × List Char) :=
  let leadingZero := match cs with
    | '0' :: rest => startsWithDigit rest
    | _ => false
  if !startsWithDigit cs || leadingZero then none
  else
    let (m, dropped, rest) := wholeDigits 0 0 false cs
    match rest with
    | '.' :: rest => fraction? negative m dropped rest
    | 'e' :: _ => float? negative m dropped rest
    | 'E' :: _ => float? negative m dropped rest
    | _ =>
      if dropped == 0 then some (integer negative m, rest)
      else float? negative m dropped rest

mutual
/-- Reads a value at the first character that is no blank. `room` is how many levels may still be
opened, `fuel` bounds the number of steps, and `keep` keeps repeated keys. -/
def value? (keep : Bool) : Nat → Option Nat → List Char → Option (Json × List Char)
  | 0, _, _ => none
  | fuel + 1, room, cs =>
    match skipBlanks cs with
    | 'n' :: 'u' :: 'l' :: 'l' :: rest => some (.null, rest)
    | 't' :: 'r' :: 'u' :: 'e' :: rest => some (.bool true, rest)
    | 'f' :: 'a' :: 'l' :: 's' :: 'e' :: rest => some (.bool false, rest)
    | '"' :: rest => (string? (rest.length + 1) [] rest).map fun (s, rest) => (.str s, rest)
    | '[' :: rest =>
      if room == some 0 then none
      else
        match skipBlanks rest with
        | ']' :: rest => some (.arr [], rest)
        | rest => items? keep fuel (room.map (· - 1)) [] rest
    | '\x7b' :: rest =>
      if room == some 0 then none
      else
        match skipBlanks rest with
        | '\x7d' :: rest => some (.obj [], rest)
        | rest => fields? keep fuel (room.map (· - 1)) [] rest
    | '-' :: rest => number? true rest
    | rest => number? false rest

/-- Reads the items of an array up to its end; `out` holds those before, last one first. -/
def items? (keep : Bool) : Nat → Option Nat → List Json → List Char → Option (Json × List Char)
  | 0, _, _, _ => none
  | fuel + 1, room, out, cs => do
    let (j, rest) ← value? keep fuel room cs
    match skipBlanks rest with
    | ',' :: rest => items? keep fuel room (j :: out) rest
    | ']' :: rest => some (.arr (j :: out).reverse, rest)
    | _ => none

/-- Reads the fields of an object up to its end; `out` holds those before. -/
def fields? (keep : Bool) :
    Nat → Option Nat → List (String × Json) → List Char → Option (Json × List Char)
  | 0, _, _, _ => none
  | fuel + 1, room, out, cs =>
    match skipBlanks cs with
    | '"' :: rest => do
      let (key, rest) ← string? (rest.length + 1) [] rest
      match skipBlanks rest with
      | ':' :: rest =>
        let (j, rest) ← value? keep fuel room rest
        let out := if keep then out ++ [(key, j)] else put key j out
        match skipBlanks rest with
        | ',' :: rest => fields? keep fuel room out rest
        | '\x7d' :: rest => some (.obj out, rest)
        | _ => none
      | _ => none
    | _ => none
end

end Workflow.Json.Reader

namespace Workflow.Json

/-- Reads a text that is one value and nothing else. With `levels` given, that many arrays and
objects inside each other are allowed, and `keep` keeps repeated keys. Each step takes at least one
character, so twice the length of the text bounds the number of steps. -/
def parseWith? (keep : Bool) (text : String) (levels : Option Nat) : Option Json := do
  let cs := text.toList
  let (j, rest) ← Reader.value? keep (2 * cs.length + 2) levels cs
  if (Reader.skipBlanks rest).isEmpty then some j else none

/-- Reads a text that is one value and nothing else. Of repeated keys the last value stays. -/
def parse? (text : String) (levels : Option Nat) : Option Json := parseWith? false text levels

end Workflow.Json
