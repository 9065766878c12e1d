import SmallLisp.Value.Basic

/-!
# `SmallLisp.Value.Equal`: when two values are the same

Numbers are compared as numbers: `0.0` equals `-0.0`, no number equals what is no number, and an
embedded integer equals the double of exactly its value. Truth values, texts, symbols, primitives
and special forms are the same when they are written the same, lists when their members are. A
closure equals nothing.
-/

namespace SmallLisp

/-- Is the double exactly this integer? -/
def Decimal.Binary.isInt (b : Decimal.Binary) (n : Int) : Bool :=
  b.magnitude < Decimal.infinity && Decimal.units b.magnitude == n.natAbs * Decimal.unitsInOne &&
    (n == 0 || b.negative == decide (n < 0))

namespace Embedded

/-- The integer that an embedded value counts as. -/
def int? : Embedded → Option Int
  | .int n => some n
  | .bool b => some (if b then 1 else 0)
  | .nothing => none

/-- Is the embedded value the same number as the double? -/
def isDouble (e : Embedded) (x : Float) : Bool :=
  e.int?.any fun n => (Decimal.Binary.ofFloat x).isInt n

/-- Are two embedded values the same? -/
def equal : Embedded → Embedded → Bool
  | .nothing, .nothing => true
  | a, b =>
    match a.int?, b.int? with
    | some m, some n => m == n
    | _, _ => false

end Embedded

namespace Value

mutual

/-- Are two values the same? -/
def equal : Value → Value → Bool
  | .number x, .number y => x == y
  | .number x, .embedded e => e.isDouble x
  | .embedded e, .number x => e.isDouble x
  | .embedded a, .embedded b => a.equal b
  | .text s, .text t => s == t
  | .truth a, .truth b => a == b
  | .symbol a, .symbol b => a == b
  | .list xs, .list ys => equalEach xs ys
  | .primitive p, .primitive q => p == q
  | .special f, .special g => f == g
  | _, _ => false

/-- Are the members of two lists the same, place by place? -/
def equalEach : List Value → List Value → Bool
  | [], [] => true
  | x :: xs, y :: ys => equal x y && equalEach xs ys
  | _, _ => false

end

instance : BEq Value := ⟨equal⟩

end Value

end SmallLisp
