import Wsupp.Bytes

/-!
# SHA-1 and HMAC-SHA1

The block function, the three paddings and the incremental HMAC of the crypto
library. The schedule `W` is kept newest word first, so that `W[i-3]` of the source
is the third word of the list. The four loops of twenty rounds stay four loops, each
with its own function and constant.

`hmac_sha1` takes the length of the key as an argument of its own and copies at most
one block of it; a longer key is cut there, where the standard would hash it first.
The modules on hashing and on passphrases say what follows from that.
-/
namespace Wsupp.Sha1

def rol (x : UInt32) (n : UInt32) : UInt32 := (x <<< n) ||| (x >>> (32 - n))

def fa (b c d : UInt32) : UInt32 := (b &&& c) ||| (~~~b &&& d)
def fb (b c d : UInt32) : UInt32 := b ^^^ c ^^^ d
def fc (b c d : UInt32) : UInt32 := (b &&& c) ||| (b &&& d) ||| (c &&& d)

/-- The chaining value `H[0..4]`. -/
structure State where
  a : UInt32
  b : UInt32
  c : UInt32
  d : UInt32
  e : UInt32
deriving DecidableEq, Repr

def init : State := ⟨0x67452301, 0xEFCDAB89, 0x98BADCFE, 0x10325476, 0xC3D2E1F0⟩

/-- One round with the round function and constant of its quarter. -/
def round (f : UInt32 → UInt32 → UInt32 → UInt32) (k : UInt32) (h : State) (w : UInt32) : State :=
  ⟨rol h.a 5 + f h.b h.c h.d + h.e + w + k, h.a, rol h.b 30, h.c, h.d⟩

def hash (h : State) (W : List UInt32) : State :=
  let h₁ := (W.take 20).foldl (round fa 0x5A827999) h
  let h₂ := ((W.drop 20).take 20).foldl (round fb 0x6ED9EBA1) h₁
  let h₃ := ((W.drop 40).take 20).foldl (round fc 0x8F1BBCDC) h₂
  let h₄ := ((W.drop 60).take 20).foldl (round fb 0xCA62C1D6) h₃
  ⟨h.a + h₄.a, h.b + h₄.b, h.c + h₄.c, h.d + h₄.d, h.e + h₄.e⟩

def word (b : Bytes) (i : ℕ) : UInt32 :=
  ((b.at' (4 * i)).toUInt32 <<< 24) ||| ((b.at' (4 * i + 1)).toUInt32 <<< 16) |||
    ((b.at' (4 * i + 2)).toUInt32 <<< 8) ||| (b.at' (4 * i + 3)).toUInt32

/-- Words 16 to 79; `ws` holds the words so far, newest first. -/
def extend : ℕ → List UInt32 → List UInt32
  | 0, ws => ws
  | n + 1, ws =>
      extend n (rol (ws.getD 2 0 ^^^ ws.getD 7 0 ^^^ ws.getD 13 0 ^^^ ws.getD 15 0) 1 :: ws)

def load (blk : Bytes) : List UInt32 :=
  (extend 64 ((List.range 16).map (word blk)).reverse).reverse

def proc (h : State) (blk : Bytes) : State := hash h (load blk)

def ofWord (w : UInt32) : Bytes :=
  [(w >>> 24).toUInt8, (w >>> 16).toUInt8, (w >>> 8).toUInt8, w.toUInt8]

def fini (h : State) : Bytes :=
  ofWord h.a ++ ofWord h.b ++ ofWord h.c ++ ofWord h.d ++ ofWord h.e

/-- The 64-bit length in bits, as `sha1_put_size` stores it. -/
def putSize (total : ℕ) : Bytes :=
  let bits := total * 8 % 2 ^ 64
  ofWord (UInt32.ofNat (bits / 2 ^ 32)) ++ ofWord (UInt32.ofNat (bits % 2 ^ 32))

def pad1 (tail : Bytes) (total : ℕ) : Bytes :=
  tail ++ [0x80] ++ Bytes.zeros (55 - tail.length) ++ putSize total

def pad2 (tail : Bytes) : Bytes := tail ++ [0x80] ++ Bytes.zeros (63 - tail.length)

def pad0 (total : ℕ) : Bytes := Bytes.zeros 56 ++ putSize total

/-- `sha1_last`: the truncated last block, with a second one when the size no
longer fits behind it. -/
def last (h : State) (ptr : Bytes) (len total : ℕ) : State :=
  let tail := ptr.take (len % 64)
  if 55 < tail.length then proc (proc h (pad2 tail)) (pad0 total)
  else proc h (pad1 tail total)

/-- The `while(end - ptr >= block)` loop: whole blocks are taken off the front. -/
def blocks (fuel : ℕ) (h : State) (ptr : Bytes) : State × Bytes :=
  match fuel with
  | 0 => (h, ptr)
  | fuel + 1 => if 64 ≤ ptr.length then blocks fuel (proc h (ptr.take 64)) (ptr.drop 64) else (h, ptr)

def sha1 (input : Bytes) : Bytes :=
  let r := blocks input.length init input
  fini (last r.1 r.2 r.2.length input.length)

def hashRest (h : State) (input : Bytes) (prev : ℕ) : State :=
  let r := blocks input.length h input
  last r.1 r.2 r.2.length (input.length + prev)

def hmacPad (key : Bytes) (klen : ℕ) (val : UInt8) : Bytes :=
  (key.take klen ++ Bytes.zeros (64 - klen)).map (· ^^^ val)

/-- Keys longer than a block are cut, not hashed. -/
def hmacSha1 (key : Bytes) (klen : Int) (input : Bytes) : Bytes :=
  let klen := (min (max klen 0) 64).toNat
  let inner := fini (hashRest (proc init (hmacPad key klen 0x36)) input 64)
  fini (last (proc init (hmacPad key klen 0x5C)) inner 20 (64 + 20))

end Wsupp.Sha1
