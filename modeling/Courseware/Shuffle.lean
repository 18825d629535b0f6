/-!
# Shuffling

`shuffle` puts the items of a list into an order that depends on their number and on a seed only, so
that the same question always shows its answers in the same order. It exchanges items from the end of
the list to its start, each with one that a 32-bit generator picks among those up to it.
-/

namespace Courseware

/-- A generator of 32-bit numbers. All arithmetic is modulo 2³². -/
structure Generator where
  state : UInt32
deriving DecidableEq, Repr

namespace Generator

/-- The UTF-16 code units of a character. -/
def unitsOf (letter : Char) : List UInt32 :=
  let code := letter.toNat
  if code < 0x10000 then
    [code.toUInt32]
  else
    [(0xD800 + (code - 0x10000) / 0x400).toUInt32, (0xDC00 + (code - 0x10000) % 0x400).toUInt32]

/-- The generator whose state is the value, to the base 31, of the UTF-16 code units of a seed. -/
def ofSeed (seed : String) : Generator :=
  ⟨(seed.toList.flatMap unitsOf).foldl (fun value unit => value * 31 + unit) 0⟩

/-- The next number, and the generator after it. -/
def next (generator : Generator) : UInt32 × Generator :=
  let state := generator.state + 0x6D2B79F5
  let mixed := (state ^^^ (state >>> 15)) * (state ||| 1)
  let mixed := mixed ^^^ (mixed + (mixed ^^^ (mixed >>> 7)) * (mixed ||| 61))
  (mixed ^^^ (mixed >>> 14), ⟨state⟩)

/-- The first `count` numbers of a generator. -/
def take (generator : Generator) : Nat → List UInt32
  | 0 => []
  | count + 1 => generator.next.1 :: generator.next.2.take count

/-- A number of the generator as a fraction of 2³², a double from 0 up to 1. -/
def fraction (number : UInt32) : Float := number.toFloat / 4294967296.0

/-- The bits of a number as a fraction of 2³². -/
def fractionBits (number : UInt32) : Nat := (fraction number).toBits.toNat

/-- The index that a number picks among `count` items: its fraction of them in double precision, rounded
down. -/
def pick (number : UInt32) (count : Nat) : Nat :=
  (fraction number * count.toUInt64.toFloat).toUInt64.toNat

/-- Exchange each item from the one with index `last` down to the second with one that the generator
picks among those up to it. -/
def exchange {α : Type} (generator : Generator) (items : Array α) : Nat → Array α
  | 0 => items
  | last + 1 =>
    let (number, generator) := generator.next
    let other := min (pick number (last + 2)) (last + 1)
    generator.exchange (items.swapIfInBounds (last + 1) other) last

end Generator

/-- The items in the order that belongs to a seed. -/
def shuffle {α : Type} (items : List α) (seed : String) : List α :=
  ((Generator.ofSeed seed).exchange items.toArray (items.length - 1)).toList

end Courseware
