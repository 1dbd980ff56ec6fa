import QuantityCalculus.Number.Wide

namespace QuantityCalculus

/-!
A reproducible sequence of numbers that look drawn at random.

A state of 128 bits is multiplied and shifted in every step, and each state
gives one word of 64 bits: its two halves are combined and rotated by as many
places as its highest bits say.  The sequence always starts from the same
state, so everything that is sampled with it can be repeated.
-/

/-- The state of the sequence. -/
structure Generator where
  state : Nat
deriving DecidableEq, Repr

namespace Generator

def stateSize : Nat := Nat.pow 2 128

def wordSize : Nat := Nat.pow 2 64

def multiplier : Nat := 47026247687942121848144207491837523525

def increment : Nat := 87136372517582989555478159403783844777

/-- The start of the sequence. -/
def initial : Generator := ⟨35399562948360463058890781895381311971⟩

/-- The state after the next step. -/
def step (generator : Generator) : Generator :=
  ⟨(generator.state * multiplier + increment) % stateSize⟩

/-- The word of a state. -/
def word (generator : Generator) : Nat :=
  let mixed := Nat.xor (generator.state / wordSize) (generator.state % wordSize)
  let places := generator.state / Nat.pow 2 122
  mixed / Nat.pow 2 places + mixed * Nat.pow 2 (64 - places) % wordSize

/-- The next number from zero to below one, a multiple of two to the minus fifty-three. -/
def next (generator : Generator) : Wide × Generator :=
  let generator := generator.step
  (Wide.round (generator.word / Nat.pow 2 11 : Nat) (-53), generator)

/-- The next number between two limits. -/
def between (low high : Wide) (generator : Generator) : Wide × Generator :=
  let (unit, generator) := generator.next
  (low.add ((high.sub low).mul unit), generator)

/-- The next numbers between two limits. -/
def listBetween (low high : Wide) : Nat -> Generator -> List Wide × Generator
  | 0, generator => ([], generator)
  | count + 1, generator =>
      let (value, generator) := generator.between low high
      let (rest, generator) := listBetween low high count generator
      (value :: rest, generator)

end Generator
end QuantityCalculus
