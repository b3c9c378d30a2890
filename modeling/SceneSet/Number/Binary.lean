import SceneSet.Number.Format

/-!
# Binary floating-point numbers

The numbers of a binary format, as data: a not-a-number, two infinities, and finite numbers given
by a sign and the code of their magnitude. Every operation takes the exact rational result and
rounds it once, to nearest with ties to even (`Binary.round`), with gradual underflow and overflow
to infinity.
-/

namespace SceneSet.Number

/-- A number of a binary format. -/
inductive Binary (f : Format) where
  | nan
  | infinite (negative : Bool)
  | finite (negative : Bool) (code : Fin f.infinityCode)
  deriving DecidableEq

/-- A 32-bit number. -/
abbrev Single := Binary Format.single

/-- A 64-bit number. -/
abbrev Double := Binary Format.double

namespace Binary

variable {f g : Format}

/-- The number with this sign and magnitude code, infinite from `infinityCode` on. -/
def ofCode (negative : Bool) (code : Nat) : Binary f :=
  if small : code < f.infinityCode then .finite negative ⟨code, small⟩ else .infinite negative

/-- Zero, with a sign. -/
def zero (negative : Bool) : Binary f := .finite negative ⟨0, f.infinityCode_pos⟩

/-- The exact value of a finite number; the others are given zero. -/
def toRat : Binary f → Rat
  | .finite negative code =>
      if negative then -f.magnitude code else f.magnitude code
  | _ => 0

/-- The number nearest to an exact value. A zero takes the sign `zeroNegative`; every other
result, also one that rounds to zero, takes the sign of the value. -/
def round (zeroNegative : Bool) (value : Rat) : Binary f :=
  ofCode (if value.num = 0 then zeroNegative else value.num < 0)
    (f.nearestCode (value.num.natAbs <<< f.scale) value.den)

/-- The number nearest to an integer. -/
def ofInt (n : Int) : Binary f := round false n

/-- Whether the sign is negative, zeros included. -/
def isNegative : Binary f → Bool
  | .nan => false
  | .infinite negative => negative
  | .finite negative _ => negative

/-- Whether the number is neither infinite nor a not-a-number. -/
def isFinite : Binary f → Bool
  | .finite .. => true
  | _ => false

/-- Whether the number is a zero of either sign. -/
def isZero : Binary f → Bool
  | .finite _ code => code.val == 0
  | _ => false

/-- The same number in another format, rounded if it is not one of its numbers. -/
def convert : Binary f → Binary g
  | .nan => .nan
  | .infinite negative => .infinite negative
  | x@(.finite negative _) => round negative x.toRat

/-- The opposite number. -/
def neg : Binary f → Binary f
  | .nan => .nan
  | .infinite negative => .infinite (!negative)
  | .finite negative code => .finite (!negative) code

/-- The rounded sum. A sum that is exactly zero is negative only if both terms are. -/
def add : Binary f → Binary f → Binary f
  | .nan, _ | _, .nan => .nan
  | .infinite s, .infinite t => if s = t then .infinite s else .nan
  | .infinite s, .finite _ _ => .infinite s
  | .finite _ _, .infinite t => .infinite t
  | x@(.finite s _), y@(.finite t _) => round (s && t) (x.toRat + y.toRat)

/-- The rounded difference. -/
def sub (x y : Binary f) : Binary f := add x (neg y)

/-- The rounded product. -/
def mul : Binary f → Binary f → Binary f
  | .nan, _ | _, .nan => .nan
  | .infinite s, .infinite t => .infinite (s != t)
  | .infinite s, .finite t code => if code.val = 0 then .nan else .infinite (s != t)
  | .finite s code, .infinite t => if code.val = 0 then .nan else .infinite (s != t)
  | x@(.finite s _), y@(.finite t _) => round (s != t) (x.toRat * y.toRat)

/-- The rounded quotient. -/
def div : Binary f → Binary f → Binary f
  | .nan, _ | _, .nan => .nan
  | .infinite _, .infinite _ => .nan
  | .infinite s, .finite t _ => .infinite (s != t)
  | .finite s _, .infinite t => zero (s != t)
  | x@(.finite s xCode), y@(.finite t yCode) =>
      if yCode.val = 0 then
        if xCode.val = 0 then .nan else .infinite (s != t)
      else round (s != t) (x.toRat / y.toRat)

/-- The rounded square root. The root of `n` units is the root of `n * 2 ^ scale` divided by
`2 ^ scale`; it is taken to `precision + 1` further bits, and a remainder is replaced by half of
the last of them, which is on the same side of every rounding boundary. -/
def sqrt : Binary f → Binary f
  | .nan => .nan
  | .infinite negative => if negative then .nan else .infinite false
  | .finite negative code =>
      if code.val = 0 then .finite negative code
      else if negative then .nan
      else
        let extra := f.precision + 1
        let square := f.units code <<< (f.scale + 2 * extra)
        let root := square.sqrt
        let sticky := if root * root = square then 0 else 1
        ofCode false (f.nearestCode (2 * root + sticky) (2 <<< extra))

instance : Neg (Binary f) := ⟨neg⟩
instance : Add (Binary f) := ⟨add⟩
instance : Sub (Binary f) := ⟨sub⟩
instance : Mul (Binary f) := ⟨mul⟩
instance : Div (Binary f) := ⟨div⟩

/-- A place in the order of the numbers; the two zeros share one. -/
def rank : Binary f → Int
  | .nan => 0
  | .infinite negative => if negative then -f.infinityCode else f.infinityCode
  | .finite negative code => if negative then -(code.val : Int) else code.val

/-- Whether one number is below another; nothing is below or above a not-a-number. -/
def below (x y : Binary f) : Bool :=
  x != .nan && y != .nan && decide (x.rank < y.rank)

/-- The lesser of two numbers, or a not-a-number if one of them is. Of equal ones the first. -/
def least (x y : Binary f) : Binary f :=
  if x = .nan ∨ y = .nan then .nan else if y.below x then y else x

/-- The greater of two numbers, or a not-a-number if one of them is. Of equal ones the first. -/
def greatest (x y : Binary f) : Binary f :=
  if x = .nan ∨ y = .nan then .nan else if x.below y then y else x

/-- The number that a word of the format stores. All words of not-a-numbers are one value. -/
def ofBits (word : Nat) : Binary f :=
  let half := f.hidden <<< f.exponentBits
  let negative := word / half % 2 = 1
  let code := word % half
  if code ≤ f.infinityCode then ofCode negative code else .nan

/-- The word that stores a number; a not-a-number is stored as the least quiet one. -/
def toBits : Binary f → Nat
  | .nan => f.infinityCode + f.hidden / 2
  | .infinite negative => (if negative then f.hidden <<< f.exponentBits else 0) + f.infinityCode
  | .finite negative code => (if negative then f.hidden <<< f.exponentBits else 0) + code

end Binary

end SceneSet.Number
