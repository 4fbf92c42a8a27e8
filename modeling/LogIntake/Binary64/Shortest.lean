import LogIntake.Binary64.Basic

/-!
# Shortest decimal text of a double

The reals that round to a given double form an interval around it. The text of
the double takes its digits from the coarsest grid of multiples of a power of
ten that has a point in that interval, so no shorter decimal reads back as the
same double. Of the two grid points beside the double the one inside the
interval is taken, of two the nearer, and a `Layout` says which when they are
equally near.

The layout also says which decimal exponents are written positionally and what
follows a whole number.
-/

namespace LogIntake.Binary64

/-- How the digits of a double are chosen on a tie and laid out. -/
structure Layout where
  /-- Which of two equally near candidates is taken: the even one or the upper one. -/
  tieToEven : Bool
  /-- The exponents of the leading digit that are written without an exponent part. -/
  positional : Int → Bool
  /-- What follows a number without fraction that is written positionally. -/
  wholeSuffix : Text

/-- Compares `m * 2 ^ e` with `d * 10 ^ k` exactly. -/
def compareScaled (m : Nat) (e : Int) (d : Nat) (k : Int) : Ordering :=
  compare (m * Nat.pow 2 e.toNat * Nat.pow 10 (-k).toNat)
    (d * Nat.pow 10 k.toNat * Nat.pow 2 (-e).toNat)

/-- Whether `d * 10 ^ k` rounds to the positive finite double `x`. The interval
is half as wide below a power of two, and its ends belong to it when the
significand is even. -/
def roundsTo (x : Binary64) (d : Nat) (k : Int) : Bool :=
  let m := x.significand
  let e := x.exponent - 2
  let lowerGap := if m = Nat.pow 2 52 ∧ 1 < x.exponentField then 1 else 2
  let lower := compareScaled (4 * m - lowerGap) e d k
  let upper := compareScaled (4 * m + 2) e d k
  if m % 2 = 0 then lower != .gt && upper != .lt else lower == .lt && upper == .gt

/-- The point beside `x` on the grid of multiples of `10 ^ k` that rounds to `x`. -/
def gridPoint? (tieToEven : Bool) (x : Binary64) (k : Int) : Option Nat :=
  let m := x.significand
  let e := x.exponent
  let below :=
    m * Nat.pow 2 e.toNat * Nat.pow 10 (-k).toNat / (Nat.pow 10 k.toNat * Nat.pow 2 (-e).toNat)
  let above := below + 1
  match roundsTo x below k, roundsTo x above k with
  | false, false => none
  | true, false => some below
  | false, true => some above
  | true, true =>
    match compareScaled (2 * m) e (below + above) k with
    | .lt => some below
    | .gt => some above
    | .eq => some (if tieToEven && below % 2 = 0 then below else above)

/-- The first grid with a point, from `10 ^ k` downwards. -/
def searchGrids (tieToEven : Bool) (x : Binary64) : Nat → Int → Nat × Int
  | 0, k => (0, k)
  | fuel + 1, k =>
    match gridPoint? tieToEven x k with
    | some d => (d, k)
    | none => searchGrids tieToEven x fuel (k - 1)

/-- The shortest decimal `(d, k)` with `d * 10 ^ k` rounding to the positive
finite double `x`. The search starts above the leading digit, and seventeen
digits always suffice. -/
def shortest (tieToEven : Bool) (x : Binary64) : Nat × Int :=
  searchGrids tieToEven x 22 (((x.significand.log2 : Int) + x.exponent) * 30103 / 100000 + 2)

/-- Digits with a point after the first `whole` of them, without exponent. -/
def positionalText (wholeSuffix digits : Text) (exponent : Int) : Text :=
  if exponent < 0 then
    "0.".toList ++ List.replicate (-exponent - 1).toNat '0' ++ digits
  else
    let whole := exponent.toNat + 1
    if digits.length ≤ whole then
      digits ++ List.replicate (whole - digits.length) '0' ++ wholeSuffix
    else digits.take whole ++ ['.'] ++ digits.drop whole

/-- Digits with a point after the first one, then the exponent with its sign. -/
def scientificText (digits : Text) (exponent : Int) : Text :=
  let mantissa :=
    match digits with
    | first :: second :: rest => first :: '.' :: second :: rest
    | short => short
  let sign := if exponent < 0 then '-' else '+'
  mantissa ++ ['e', sign] ++ Text.ofNat exponent.natAbs

/-- The text of a finite double. -/
def write (layout : Layout) (x : Binary64) : Text :=
  let sign : Text := if x.isNegative then ['-'] else []
  if x.isZero then sign ++ ['0'] ++ layout.wholeSuffix
  else
    let (d, k) := shortest layout.tieToEven x
    let digits := Text.ofNat d
    let exponent := k + digits.length - 1
    sign ++
      if layout.positional exponent then positionalText layout.wholeSuffix digits exponent
      else scientificText digits exponent

/-- Plain notation: never an exponent, and no point after a whole number. -/
def plain : Layout where
  tieToEven := false
  positional _ := true
  wholeSuffix := []

/-- The text of any double in plain notation. -/
def toText (x : Binary64) : Text :=
  if x.isNaN then "NaN".toList
  else if x.isFinite then write plain x
  else if x.isNegative then "-inf".toList
  else "inf".toList

end LogIntake.Binary64
