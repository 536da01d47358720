/-!
# Random numbers

A generator of 64-bit words whose state moves by a fixed odd step, so that it takes every
value before it repeats. Each word folds the product of the state with a masked copy of
itself. Equal seeds give equal sequences.
-/

namespace CompositeIndex

/-- The state of a generator. -/
structure Generator where
  state : UInt64
  deriving DecidableEq, Repr

namespace Generator

/-- The generator of a seed. -/
def ofSeed (seed : UInt64) : Generator :=
  ⟨seed⟩

/-- What is added to the state for each word. -/
def increment : UInt64 := 0x2d358dccaa6c78a5

/-- What the copy of the state is masked with. -/
def mask : UInt64 := 0x8bb84b93962eacc9

/-- The low half of the product, folded with the high half. -/
def fold (first second : UInt64) : UInt64 :=
  let product := first.toNat * second.toNat
  UInt64.ofNat product ^^^ UInt64.ofNat (product / Nat.pow 2 64)

/-- The next word. -/
def next (generator : Generator) : UInt64 × Generator :=
  let state := generator.state + increment
  (fold state (state ^^^ mask), ⟨state⟩)

/-- The word as a fraction; 63 of its bits are rounded to a double. -/
def fraction (word : UInt64) : Float :=
  (word >>> 1).toFloat / 9223372036854775808

/-- The next fraction below one. A word that rounds up to one is passed over; at most
`draws` words are tried. -/
def unitUpTo : (draws : Nat) → Generator → Float × Generator
  | 0, generator => (0, generator)
  | draws + 1, generator =>
      let (word, generator) := generator.next
      if fraction word < 1 then (fraction word, generator) else unitUpTo draws generator

/-- The next fraction from zero up to one, one excluded. The states repeat after `2 ^ 64`
words, so there is no point in trying more. -/
def unit (generator : Generator) : Float × Generator :=
  unitUpTo (Nat.pow 2 64) generator

end Generator
end CompositeIndex
