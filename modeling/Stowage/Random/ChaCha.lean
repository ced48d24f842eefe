/-!
A seeded generator of random words: the ChaCha stream cipher with twelve rounds, read as a
sequence of 32-bit words.

The key is eight words; the block counter is 64 bits wide and the stream number is zero. Words
are served from a buffer of four consecutive blocks (64 words); a 64-bit draw takes two words,
low one first, and when only one word is left in the buffer it is the low half and the first
word of the next buffer the high half.

A 64-bit seed becomes a key through the PCG32 generator: each of the eight key words is the
next PCG32 output, the state being advanced before each output.
-/
namespace Stowage.Random

/-- Rotate a word left. -/
def rotl (x : UInt32) (n : UInt32) : UInt32 := (x <<< n) ||| (x >>> (32 - n))

/-- The ChaCha quarter round on four words of the state. -/
def quarter (s : Array UInt32) (a b c d : Nat) : Array UInt32 :=
  let va := s[a]!
  let vb := s[b]!
  let vc := s[c]!
  let vd := s[d]!
  let va := va + vb
  let vd := rotl (vd ^^^ va) 16
  let vc := vc + vd
  let vb := rotl (vb ^^^ vc) 12
  let va := va + vb
  let vd := rotl (vd ^^^ va) 8
  let vc := vc + vd
  let vb := rotl (vb ^^^ vc) 7
  ((s.set! a va).set! b vb |>.set! c vc).set! d vd

/-- A column round and a diagonal round. -/
def doubleRound (s : Array UInt32) : Array UInt32 :=
  let s := quarter s 0 4 8 12
  let s := quarter s 1 5 9 13
  let s := quarter s 2 6 10 14
  let s := quarter s 3 7 11 15
  let s := quarter s 0 5 10 15
  let s := quarter s 1 6 11 12
  let s := quarter s 2 7 8 13
  quarter s 3 4 9 14

/-- The four constant words: "expand 32-byte k". -/
def sigma : Array UInt32 := #[0x61707865, 0x3320646e, 0x79622d32, 0x6b206574]

/-- One block of the key stream: the initial state after `rounds / 2` double rounds, plus the
initial state. -/
def block (rounds : Nat) (key : Array UInt32) (counter : UInt64) : Array UInt32 :=
  let init := sigma ++ key ++ #[counter.toUInt32, (counter >>> 32).toUInt32, 0, 0]
  let mixed := (List.range (rounds / 2)).foldl (fun s _ => doubleRound s) init
  (mixed.zip init).map fun (x, y) => x + y

/-- A generator: the key, the counter of the next block, and the buffered words not yet used
(from `index` on). -/
structure ChaCha where
  key : Array UInt32
  counter : UInt64
  buffer : Array UInt32
  index : Nat
  deriving Inhabited

namespace ChaCha

/-- Rounds of the generator. -/
def rounds : Nat := 12

/-- Words in a refill: four blocks. -/
def bufferSize : Nat := 64

/-- A generator with a key, at the start of its stream. -/
def ofKey (key : Array UInt32) : ChaCha := ⟨key, 0, #[], bufferSize⟩

/-- Fill the buffer with the next four blocks, serving from `index`. -/
def refill (g : ChaCha) (index : Nat) : ChaCha :=
  let words := (List.range 4).foldl
    (fun acc k => acc ++ block rounds g.key (g.counter + k.toUInt64)) #[]
  { g with counter := g.counter + 4, buffer := words, index }

/-- The next 32-bit word. -/
def nextU32 (g : ChaCha) : UInt32 × ChaCha :=
  let g := if g.index ≥ bufferSize then g.refill 0 else g
  (g.buffer[g.index]!, { g with index := g.index + 1 })

/-- The next 64-bit word: two words, low first. -/
def nextU64 (g : ChaCha) : UInt64 × ChaCha :=
  let join := fun (lo hi : UInt32) => (hi.toUInt64 <<< 32) ||| lo.toUInt64
  if g.index + 1 < bufferSize then
    (join g.buffer[g.index]! g.buffer[g.index + 1]!, { g with index := g.index + 2 })
  else if g.index ≥ bufferSize then
    let g := g.refill 2
    (join g.buffer[0]! g.buffer[1]!, g)
  else
    let lo := g.buffer[bufferSize - 1]!
    let g := g.refill 1
    (join lo g.buffer[0]!, g)

/-- One PCG32 step: advance the state, then output a word from it. -/
def pcg32 (state : UInt64) : UInt32 × UInt64 :=
  let state := state * 6364136223846793005 + 11634580027462260723
  let xorshifted := (((state >>> 18) ^^^ state) >>> 27).toUInt32
  let rot := (state >>> 59).toUInt32
  ((xorshifted >>> rot) ||| (xorshifted <<< ((32 - rot) % 32)), state)

/-- The generator a 64-bit seed gives. -/
def ofSeed (seed : UInt64) : ChaCha :=
  let (key, _) := (List.range 8).foldl (fun (acc, st) _ =>
    let (w, st) := pcg32 st
    (acc.push w, st)) ((#[] : Array UInt32), seed)
  ofKey key

end ChaCha

end Stowage.Random
