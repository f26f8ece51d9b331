/-!
# Content identifiers

The SHA-256 digest of a byte string, in lower-case hexadecimal digits. The bytes are padded to
whole blocks of sixteen words, which are mixed into eight words of state one after another. A
window of sixteen words slides over the schedule of a block: each round uses its first word and
appends the word that is due sixteen rounds later.
-/

namespace InfraGraph.Digest

/-- The state: eight words. -/
structure State where
  a : UInt32
  b : UInt32
  c : UInt32
  d : UInt32
  e : UInt32
  f : UInt32
  g : UInt32
  h : UInt32
  deriving DecidableEq, Inhabited

namespace State

/-- The state before the first block: fractions of the square roots of the first eight primes. -/
def initial : State where
  a := 0x6a09e667
  b := 0xbb67ae85
  c := 0x3c6ef372
  d := 0xa54ff53a
  e := 0x510e527f
  f := 0x9b05688c
  g := 0x1f83d9ab
  h := 0x5be0cd19

/-- Add two states word by word. -/
def add (s t : State) : State where
  a := s.a + t.a
  b := s.b + t.b
  c := s.c + t.c
  d := s.d + t.d
  e := s.e + t.e
  f := s.f + t.f
  g := s.g + t.g
  h := s.h + t.h

def words (s : State) : List UInt32 := [s.a,s.b,s.c,s.d,s.e,s.f,s.g,s.h]

end State

/-- The constants of the rounds: fractions of the cube roots of the first sixty-four primes. -/
def roundConstants : List UInt32 :=
  [0x428a2f98,0x71374491,0xb5c0fbcf,0xe9b5dba5,0x3956c25b,0x59f111f1,0x923f82a4,0xab1c5ed5,
   0xd807aa98,0x12835b01,0x243185be,0x550c7dc3,0x72be5d74,0x80deb1fe,0x9bdc06a7,0xc19bf174,
   0xe49b69c1,0xefbe4786,0x0fc19dc6,0x240ca1cc,0x2de92c6f,0x4a7484aa,0x5cb0a9dc,0x76f988da,
   0x983e5152,0xa831c66d,0xb00327c8,0xbf597fc7,0xc6e00bf3,0xd5a79147,0x06ca6351,0x14292967,
   0x27b70a85,0x2e1b2138,0x4d2c6dfc,0x53380d13,0x650a7354,0x766a0abb,0x81c2c92e,0x92722c85,
   0xa2bfe8a1,0xa81a664b,0xc24b8b70,0xc76c51a3,0xd192e819,0xd6990624,0xf40e3585,0x106aa070,
   0x19a4c116,0x1e376c08,0x2748774c,0x34b0bcb5,0x391c0cb3,0x4ed8aa4a,0x5b9cca4f,0x682e6ff3,
   0x748f82ee,0x78a5636f,0x84c87814,0x8cc70208,0x90befffa,0xa4506ceb,0xbef9a3f7,0xc67178f2]

def rotate (w : UInt32) (n : UInt32) : UInt32 := (w >>> n) ||| (w <<< (32 - n))

/-- Mix the word that is due next from a window of sixteen words, and slide the window. -/
def slide : List UInt32 → List UInt32
  | [] => []
  | first :: rest =>
    let near := rest.getD 0 0
    let far := rest.getD 13 0
    let low := rotate near 7 ^^^ rotate near 18 ^^^ (near >>> 3)
    let high := rotate far 17 ^^^ rotate far 19 ^^^ (far >>> 10)
    rest ++ [first + low + rest.getD 8 0 + high]

/-- One round with its constant and its word. -/
def round (s : State) (constant word : UInt32) : State :=
  let high := rotate s.e 6 ^^^ rotate s.e 11 ^^^ rotate s.e 25
  let choice := (s.e &&& s.f) ^^^ ((~~~ s.e) &&& s.g)
  let mixed := s.h + high + choice + constant + word
  let low := rotate s.a 2 ^^^ rotate s.a 13 ^^^ rotate s.a 22
  let majority := (s.a &&& s.b) ^^^ (s.a &&& s.c) ^^^ (s.b &&& s.c)
  { a := mixed + low + majority, b := s.a, c := s.b, d := s.c
    e := s.d + mixed, f := s.e, g := s.f, h := s.g }

/-- The rounds with the given constants. -/
def rounds : List UInt32 → State → List UInt32 → State
  | [], s, _ => s
  | constant :: rest, s, window => rounds rest (round s constant (window.headD 0)) (slide window)

/-- The words that bytes make in groups of four, the most significant byte first. -/
def wordsOf : List UInt8 → List UInt32
  | b₀ :: b₁ :: b₂ :: b₃ :: rest =>
    ((b₀.toUInt32 <<< 24) ||| (b₁.toUInt32 <<< 16) ||| (b₂.toUInt32 <<< 8) ||| b₃.toUInt32) ::
      wordsOf rest
  | _ => []

/-- The lowest `count` bytes of a number, the most significant byte first. -/
def bytesOf (count n : Nat) : List UInt8 :=
  (List.range count).map fun i => UInt8.ofNat (n / Nat.pow 256 (count - 1 - i))

/-- Bytes filled up to whole blocks: a marker, zeros, and the number of bits. -/
def padded (bytes : List UInt8) : List UInt8 :=
  let zeros := (119 - bytes.length % 64) % 64
  bytes ++ 0x80 :: List.replicate zeros 0 ++ bytesOf 8 (bytes.length * 8)

/-- Mix a number of blocks into a state. -/
def mix : (blocks : Nat) → State → List UInt8 → State
  | 0, s, _ => s
  | blocks + 1, s, bytes =>
    mix blocks (s.add (rounds roundConstants s (wordsOf (bytes.take 64)))) (bytes.drop 64)

def hexadecimal (bytes : List UInt8) : String :=
  String.ofList (bytes.flatMap fun b => [Nat.digitChar (b.toNat / 16),Nat.digitChar (b.toNat % 16)])

/-- The digest of a byte string. -/
def digest (bytes : List UInt8) : List UInt8 :=
  let all := padded bytes
  (mix (all.length / 64) .initial all).words.flatMap fun w => bytesOf 4 w.toNat

def contentId (bytes : List UInt8) : String := hexadecimal (digest bytes)

end InfraGraph.Digest
