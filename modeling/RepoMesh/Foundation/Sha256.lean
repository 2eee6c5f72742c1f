/-
# SHA-256

`hashlib.sha256(data).hexdigest()`, on a list of bytes, with 32-bit words as naturals below
`2 ^ 32`.
-/
import RepoMesh.Foundation.Text

namespace RepoMesh
namespace Sha256

open Text

/-- The first 32 bits of the fractional parts of the cube roots of the first 64 primes. -/
def roundConstants : List ℕ :=
  [
    0x428a2f98, 0x71374491, 0xb5c0fbcf, 0xe9b5dba5, 0x3956c25b, 0x59f111f1, 0x923f82a4, 0xab1c5ed5,
    0xd807aa98, 0x12835b01, 0x243185be, 0x550c7dc3, 0x72be5d74, 0x80deb1fe, 0x9bdc06a7, 0xc19bf174,
    0xe49b69c1, 0xefbe4786, 0x0fc19dc6, 0x240ca1cc, 0x2de92c6f, 0x4a7484aa, 0x5cb0a9dc, 0x76f988da,
    0x983e5152, 0xa831c66d, 0xb00327c8, 0xbf597fc7, 0xc6e00bf3, 0xd5a79147, 0x06ca6351, 0x14292967,
    0x27b70a85, 0x2e1b2138, 0x4d2c6dfc, 0x53380d13, 0x650a7354, 0x766a0abb, 0x81c2c92e, 0x92722c85,
    0xa2bfe8a1, 0xa81a664b, 0xc24b8b70, 0xc76c51a3, 0xd192e819, 0xd6990624, 0xf40e3585, 0x106aa070,
    0x19a4c116, 0x1e376c08, 0x2748774c, 0x34b0bcb5, 0x391c0cb3, 0x4ed8aa4a, 0x5b9cca4f, 0x682e6ff3,
    0x748f82ee, 0x78a5636f, 0x84c87814, 0x8cc70208, 0x90befffa, 0xa4506ceb, 0xbef9a3f7, 0xc67178f2
  ]

/-- The chaining state: eight words. -/
structure ChainState where
  a : ℕ
  b : ℕ
  c : ℕ
  d : ℕ
  e : ℕ
  f : ℕ
  g : ℕ
  h : ℕ

/-- The state before the first block. -/
def initialState : ChainState :=
  { a := 0x6a09e667
    b := 0xbb67ae85
    c := 0x3c6ef372
    d := 0xa54ff53a
    e := 0x510e527f
    f := 0x9b05688c
    g := 0x1f83d9ab
    h := 0x5be0cd19 }

/-- A word. -/
def word (n : ℕ) : ℕ := n % 2 ^ 32

/-- Rotation of a word to the right. -/
def rotr (n x : ℕ) : ℕ := x >>> n ||| word (x <<< (32 - n))

/-- Big-endian words of a list of bytes. -/
def wordsOf : List ℕ → List ℕ
  | a :: b :: c :: d :: rest => (((a * 256 + b) * 256 + c) * 256 + d) :: wordsOf rest
  | _ => []

/-- The message schedule, newest word first: `n` more words after those given. -/
def schedule : ℕ → List ℕ → List ℕ
  | 0, w => w
  | n + 1, w =>
    let w2 := w.getD 1 0
    let w15 := w.getD 14 0
    let s0 := (rotr 7 w15).xor ((rotr 18 w15).xor (w15 >>> 3))
    let s1 := (rotr 17 w2).xor ((rotr 19 w2).xor (w2 >>> 10))
    schedule n (word (s1 + w.getD 6 0 + s0 + w.getD 15 0) :: w)

/-- One round, with its constant and its schedule word. -/
def round (s : ChainState) (kw : ℕ × ℕ) : ChainState :=
  let s1 := (rotr 6 s.e).xor ((rotr 11 s.e).xor (rotr 25 s.e))
  let choose := (s.e &&& s.f).xor ((2 ^ 32 - 1 - s.e) &&& s.g)
  let t1 := s.h + s1 + choose + kw.1 + kw.2
  let s0 := (rotr 2 s.a).xor ((rotr 13 s.a).xor (rotr 22 s.a))
  let majority := (s.a &&& s.b).xor ((s.a &&& s.c).xor (s.b &&& s.c))
  { a := word (t1 + s0 + majority)
    b := s.a
    c := s.b
    d := s.c
    e := word (s.d + t1)
    f := s.e
    g := s.f
    h := s.g }

/-- The compression of one block of sixteen words. -/
def compress (s : ChainState) (block : List ℕ) : ChainState :=
  let r := (roundConstants.zip (schedule 48 block.reverse).reverse).foldl round s
  { a := word (s.a + r.a)
    b := word (s.b + r.b)
    c := word (s.c + r.c)
    d := word (s.d + r.d)
    e := word (s.e + r.e)
    f := word (s.f + r.f)
    g := word (s.g + r.g)
    h := word (s.h + r.h) }

/-- The compression of `n` blocks, one after the other. -/
def compressAll : ℕ → List ℕ → ChainState → ChainState
  | 0, _, s => s
  | n + 1, words, s => compressAll n (words.drop 16) (compress s (words.take 16))

/-- The eight bytes of the length in bits. -/
def lengthBytes (n : ℕ) : List ℕ :=
  [n / 256 ^ 7, n / 256 ^ 6, n / 256 ^ 5, n / 256 ^ 4, n / 256 ^ 3, n / 256 ^ 2, n / 256, n].map
    (· % 256)

/-- The message with its padding: a multiple of 64 bytes. -/
def padded (data : List ℕ) : List ℕ :=
  data ++ 0x80 :: List.replicate ((119 - data.length % 64) % 64) 0 ++ lengthBytes (8 * data.length)

/-- The state after the whole message. -/
def digest (data : List ℕ) : ChainState :=
  compressAll ((padded data).length / 64) (wordsOf (padded data)) initialState

/-- `hashlib.sha256(data).hexdigest()`. -/
def hexdigest (data : List ℕ) : String :=
  let s := digest data
  String.ofList ([s.a, s.b, s.c, s.d, s.e, s.f, s.g, s.h].flatMap (hexDigits 8))

theorem hexdigest_digits (data : List ℕ) :
    (hexdigest data).toList.length = 64 ∧
      ∀ c ∈ (hexdigest data).toList, isHexDigit c = true := by
  rw [hexdigest, String.toList_ofList]
  constructor
  · simp only [List.flatMap_cons, List.flatMap_nil, List.length_append, length_hexDigits,
      List.length_nil]
  · intro c hc
    obtain ⟨w, -, hw⟩ := List.mem_flatMap.mp hc
    exact isHexDigit_of_mem_hexDigits hw

example : hexdigest [97, 98, 99] =
    "ba7816bf8f01cfea414140de5dae2223b00361a396177a9cb410ff61f20015ad" := by decide +kernel

end Sha256
end RepoMesh
