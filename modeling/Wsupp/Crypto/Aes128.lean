import Wsupp.Bytes

/-!
# AES-128 and the RFC 3394 key wrap

The block cipher in both directions, its key schedule and the key wrap of RFC 3394.
Words are big-endian; the four words of the state are the columns of the standard's
matrix. The tables are those of the source. `unwrap` is what frames are decrypted
with, `wrap` its counterpart on the side of the access point.

The source works in place on an array; here each step is a function from words to
words, in the order of the source. Clearing the key schedule at the end has no
counterpart, as nothing reads it afterwards.
-/
namespace Wsupp.Aes128

def sbox : Bytes :=
  [ 0x63, 0x7c, 0x77, 0x7b, 0xf2, 0x6b, 0x6f, 0xc5, 0x30, 0x01, 0x67, 0x2b, 0xfe, 0xd7, 0xab, 0x76,
    0xca, 0x82, 0xc9, 0x7d, 0xfa, 0x59, 0x47, 0xf0, 0xad, 0xd4, 0xa2, 0xaf, 0x9c, 0xa4, 0x72, 0xc0,
    0xb7, 0xfd, 0x93, 0x26, 0x36, 0x3f, 0xf7, 0xcc, 0x34, 0xa5, 0xe5, 0xf1, 0x71, 0xd8, 0x31, 0x15,
    0x04, 0xc7, 0x23, 0xc3, 0x18, 0x96, 0x05, 0x9a, 0x07, 0x12, 0x80, 0xe2, 0xeb, 0x27, 0xb2, 0x75,
    0x09, 0x83, 0x2c, 0x1a, 0x1b, 0x6e, 0x5a, 0xa0, 0x52, 0x3b, 0xd6, 0xb3, 0x29, 0xe3, 0x2f, 0x84,
    0x53, 0xd1, 0x00, 0xed, 0x20, 0xfc, 0xb1, 0x5b, 0x6a, 0xcb, 0xbe, 0x39, 0x4a, 0x4c, 0x58, 0xcf,
    0xd0, 0xef, 0xaa, 0xfb, 0x43, 0x4d, 0x33, 0x85, 0x45, 0xf9, 0x02, 0x7f, 0x50, 0x3c, 0x9f, 0xa8,
    0x51, 0xa3, 0x40, 0x8f, 0x92, 0x9d, 0x38, 0xf5, 0xbc, 0xb6, 0xda, 0x21, 0x10, 0xff, 0xf3, 0xd2,
    0xcd, 0x0c, 0x13, 0xec, 0x5f, 0x97, 0x44, 0x17, 0xc4, 0xa7, 0x7e, 0x3d, 0x64, 0x5d, 0x19, 0x73,
    0x60, 0x81, 0x4f, 0xdc, 0x22, 0x2a, 0x90, 0x88, 0x46, 0xee, 0xb8, 0x14, 0xde, 0x5e, 0x0b, 0xdb,
    0xe0, 0x32, 0x3a, 0x0a, 0x49, 0x06, 0x24, 0x5c, 0xc2, 0xd3, 0xac, 0x62, 0x91, 0x95, 0xe4, 0x79,
    0xe7, 0xc8, 0x37, 0x6d, 0x8d, 0xd5, 0x4e, 0xa9, 0x6c, 0x56, 0xf4, 0xea, 0x65, 0x7a, 0xae, 0x08,
    0xba, 0x78, 0x25, 0x2e, 0x1c, 0xa6, 0xb4, 0xc6, 0xe8, 0xdd, 0x74, 0x1f, 0x4b, 0xbd, 0x8b, 0x8a,
    0x70, 0x3e, 0xb5, 0x66, 0x48, 0x03, 0xf6, 0x0e, 0x61, 0x35, 0x57, 0xb9, 0x86, 0xc1, 0x1d, 0x9e,
    0xe1, 0xf8, 0x98, 0x11, 0x69, 0xd9, 0x8e, 0x94, 0x9b, 0x1e, 0x87, 0xe9, 0xce, 0x55, 0x28, 0xdf,
    0x8c, 0xa1, 0x89, 0x0d, 0xbf, 0xe6, 0x42, 0x68, 0x41, 0x99, 0x2d, 0x0f, 0xb0, 0x54, 0xbb, 0x16 ]

def rbox : Bytes :=
  [ 0x52, 0x09, 0x6a, 0xd5, 0x30, 0x36, 0xa5, 0x38, 0xbf, 0x40, 0xa3, 0x9e, 0x81, 0xf3, 0xd7, 0xfb,
    0x7c, 0xe3, 0x39, 0x82, 0x9b, 0x2f, 0xff, 0x87, 0x34, 0x8e, 0x43, 0x44, 0xc4, 0xde, 0xe9, 0xcb,
    0x54, 0x7b, 0x94, 0x32, 0xa6, 0xc2, 0x23, 0x3d, 0xee, 0x4c, 0x95, 0x0b, 0x42, 0xfa, 0xc3, 0x4e,
    0x08, 0x2e, 0xa1, 0x66, 0x28, 0xd9, 0x24, 0xb2, 0x76, 0x5b, 0xa2, 0x49, 0x6d, 0x8b, 0xd1, 0x25,
    0x72, 0xf8, 0xf6, 0x64, 0x86, 0x68, 0x98, 0x16, 0xd4, 0xa4, 0x5c, 0xcc, 0x5d, 0x65, 0xb6, 0x92,
    0x6c, 0x70, 0x48, 0x50, 0xfd, 0xed, 0xb9, 0xda, 0x5e, 0x15, 0x46, 0x57, 0xa7, 0x8d, 0x9d, 0x84,
    0x90, 0xd8, 0xab, 0x00, 0x8c, 0xbc, 0xd3, 0x0a, 0xf7, 0xe4, 0x58, 0x05, 0xb8, 0xb3, 0x45, 0x06,
    0xd0, 0x2c, 0x1e, 0x8f, 0xca, 0x3f, 0x0f, 0x02, 0xc1, 0xaf, 0xbd, 0x03, 0x01, 0x13, 0x8a, 0x6b,
    0x3a, 0x91, 0x11, 0x41, 0x4f, 0x67, 0xdc, 0xea, 0x97, 0xf2, 0xcf, 0xce, 0xf0, 0xb4, 0xe6, 0x73,
    0x96, 0xac, 0x74, 0x22, 0xe7, 0xad, 0x35, 0x85, 0xe2, 0xf9, 0x37, 0xe8, 0x1c, 0x75, 0xdf, 0x6e,
    0x47, 0xf1, 0x1a, 0x71, 0x1d, 0x29, 0xc5, 0x89, 0x6f, 0xb7, 0x62, 0x0e, 0xaa, 0x18, 0xbe, 0x1b,
    0xfc, 0x56, 0x3e, 0x4b, 0xc6, 0xd2, 0x79, 0x20, 0x9a, 0xdb, 0xc0, 0xfe, 0x78, 0xcd, 0x5a, 0xf4,
    0x1f, 0xdd, 0xa8, 0x33, 0x88, 0x07, 0xc7, 0x31, 0xb1, 0x12, 0x10, 0x59, 0x27, 0x80, 0xec, 0x5f,
    0x60, 0x51, 0x7f, 0xa9, 0x19, 0xb5, 0x4a, 0x0d, 0x2d, 0xe5, 0x7a, 0x9f, 0x93, 0xc9, 0x9c, 0xef,
    0xa0, 0xe0, 0x3b, 0x4d, 0xae, 0x2a, 0xf5, 0xb0, 0xc8, 0xeb, 0xbb, 0x3c, 0x83, 0x53, 0x99, 0x61,
    0x17, 0x2b, 0x04, 0x7e, 0xba, 0x77, 0xd6, 0x26, 0xe1, 0x69, 0x14, 0x63, 0x55, 0x21, 0x0c, 0x7d ]

def rcon : Bytes := [0x8d, 0x01, 0x02, 0x04, 0x08, 0x10, 0x20, 0x40, 0x80, 0x1b, 0x36]

def b0 (w : UInt32) : UInt8 := (w >>> 24).toUInt8
def b1 (w : UInt32) : UInt8 := (w >>> 16).toUInt8
def b2 (w : UInt32) : UInt8 := (w >>> 8).toUInt8
def b3 (w : UInt32) : UInt8 := w.toUInt8

/-- The macro `W(a,b,c,d)`. -/
def w (a b c d : UInt8) : UInt32 :=
  (a.toUInt32 <<< 24) ||| (b.toUInt32 <<< 16) ||| (c.toUInt32 <<< 8) ||| d.toUInt32

def rotword (x : UInt32) : UInt32 := (x <<< 8) ||| ((x >>> 24) &&& 0xFF)

def subword (x : UInt32) (box : Bytes) : UInt32 :=
  w (box.at' (b0 x).toNat) (box.at' (b1 x).toNat) (box.at' (b2 x).toNat) (box.at' (b3 x).toNat)

def xtime (x : UInt8) : UInt8 := (x <<< 1) ^^^ (((x >>> 7) &&& 1) * 0x1b)

/-- Five doubling steps: enough for the factors the cipher uses. -/
def xmulLoop : ℕ → UInt8 → UInt8 → UInt8 → UInt8
  | 0, _, _, m => m
  | n + 1, x, y, m => xmulLoop n (xtime x) (y >>> 1) (if y &&& 1 = 1 then m ^^^ x else m)

def xmul (x y : UInt8) : UInt8 := xmulLoop 5 x y 0

structure State where
  s0 : UInt32
  s1 : UInt32
  s2 : UInt32
  s3 : UInt32
deriving DecidableEq, Repr

def State.map (f : UInt32 → UInt32) (s : State) : State := ⟨f s.s0, f s.s1, f s.s2, f s.s3⟩

/-- Round `r` of the 44 words of round keys. -/
def addRoundKey (s : State) (W : List UInt32) (r : ℕ) : State :=
  ⟨s.s0 ^^^ W.getD (4 * r) 0, s.s1 ^^^ W.getD (4 * r + 1) 0,
    s.s2 ^^^ W.getD (4 * r + 2) 0, s.s3 ^^^ W.getD (4 * r + 3) 0⟩

def rowshift (a b c d : UInt32) : UInt32 := w (b0 a) (b1 b) (b2 c) (b3 d)

def invShiftRows (s : State) : State :=
  ⟨rowshift s.s0 s.s3 s.s2 s.s1, rowshift s.s1 s.s0 s.s3 s.s2,
    rowshift s.s2 s.s1 s.s0 s.s3, rowshift s.s3 s.s2 s.s1 s.s0⟩

def fwdShiftRows (s : State) : State :=
  ⟨rowshift s.s0 s.s1 s.s2 s.s3, rowshift s.s1 s.s2 s.s3 s.s0,
    rowshift s.s2 s.s3 s.s0 s.s1, rowshift s.s3 s.s0 s.s1 s.s2⟩

def colmul (x : UInt32) (a b c d : UInt8) : UInt8 :=
  xmul (b0 x) a ^^^ xmul (b1 x) b ^^^ xmul (b2 x) c ^^^ xmul (b3 x) d

def invSubBytes (s : State) : State := s.map (subword · rbox)

def fwdSubBytes (s : State) : State := s.map (subword · sbox)

def invMixColumns (s : State) : State := s.map fun x =>
  w (colmul x 0x0E 0x0B 0x0D 0x09) (colmul x 0x09 0x0E 0x0B 0x0D)
    (colmul x 0x0D 0x09 0x0E 0x0B) (colmul x 0x0B 0x0D 0x09 0x0E)

def fwdMixColumns (s : State) : State := s.map fun x =>
  w (colmul x 0x02 0x03 0x01 0x01) (colmul x 0x01 0x02 0x03 0x01)
    (colmul x 0x01 0x01 0x02 0x03) (colmul x 0x03 0x01 0x01 0x02)

def loadWord (b : Bytes) (i : ℕ) : UInt32 :=
  w (b.at' (4 * i)) (b.at' (4 * i + 1)) (b.at' (4 * i + 2)) (b.at' (4 * i + 3))

def loadBlock (b : Bytes) : State := ⟨loadWord b 0, loadWord b 1, loadWord b 2, loadWord b 3⟩

def saveWord (x : UInt32) : Bytes := [b0 x, b1 x, b2 x, b3 x]

def saveBlock (s : State) : Bytes :=
  saveWord s.s0 ++ saveWord s.s1 ++ saveWord s.s2 ++ saveWord s.s3

/-- Round key words, newest first: `ws` starts with `W[i-1]`. -/
def expand : ℕ → ℕ → List UInt32 → List UInt32
  | 0, _, ws => ws
  | n + 1, i, ws =>
      let temp := ws.getD 0 0
      let temp :=
        if i % 4 = 0 then
          subword (rotword temp) sbox ^^^ ((rcon.at' (i / 4)).toUInt32 <<< 24)
        else temp
      expand n (i + 1) ((ws.getD 3 0 ^^^ temp) :: ws)

def init (key : Bytes) : List UInt32 :=
  (expand 40 4 [loadWord key 3, loadWord key 2, loadWord key 1, loadWord key 0]).reverse

/-- Rounds `r` down to 1 of the decryption. -/
def decryptRounds (W : List UInt32) : ℕ → State → State
  | 0, s => s
  | r + 1, s =>
      decryptRounds W r (invMixColumns (addRoundKey (invSubBytes (invShiftRows s)) W (r + 1)))

def decrypt (W : List UInt32) (blk : Bytes) : Bytes :=
  let s := decryptRounds W 9 (addRoundKey (loadBlock blk) W 10)
  saveBlock (addRoundKey (invSubBytes (invShiftRows s)) W 0)

/-- `n` rounds of the encryption from round `r` on. -/
def encryptRounds (W : List UInt32) : ℕ → ℕ → State → State
  | 0, _, s => s
  | n + 1, r, s =>
      encryptRounds W n (r + 1) (addRoundKey (fwdMixColumns (fwdShiftRows (fwdSubBytes s))) W r)

def encrypt (W : List UInt32) (blk : Bytes) : Bytes :=
  let s := encryptRounds W 9 1 (addRoundKey (loadBlock blk) W 0)
  saveBlock (addRoundKey (fwdShiftRows (fwdSubBytes s)) W 10)

/-- `wrapmask(n)` in memory order: a 32-bit count in the low half of a
big-endian 64-bit word. -/
def wrapmask (n : ℕ) : Bytes := Bytes.zeros 4 ++ saveWord (UInt32.ofNat n)

/-- Block `i` of the buffer, eight bytes. -/
def block (R : Bytes) (i : ℕ) : Bytes := R.slice (8 * i) 8

def setBlock (R : Bytes) (i : ℕ) (b : Bytes) : Bytes :=
  R.take (8 * i) ++ b ++ R.drop (8 * i + 8)

/-- One step of the inner loop, with `t = n*j + i`. -/
def unwrapStep (W : List UInt32) (R : Bytes) (t i : ℕ) : Bytes :=
  let R := setBlock R 0 (Bytes.xor (block R 0) (wrapmask t))
  let B := decrypt W (block R 0 ++ block R i)
  setBlock (setBlock R 0 (B.take 8)) i (B.drop 8)

/-- `i` from the given index down to 1. -/
def unwrapInner (W : List UInt32) (base : ℕ) : ℕ → Bytes → Bytes
  | 0, R => R
  | i + 1, R => unwrapInner W base i (unwrapStep W R (base + (i + 1)) (i + 1))

/-- `j` rounds, the last of them with `j = 0`. -/
def unwrapOuter (W : List UInt32) (n : ℕ) : ℕ → Bytes → Bytes
  | 0, R => R
  | j + 1, R => unwrapOuter W n j (unwrapInner W (n * j) n R)

def unwrap (key buf : Bytes) : Bytes :=
  unwrapOuter (init key) (buf.length / 8 - 1) 6 buf

def wrapStep (W : List UInt32) (R : Bytes) (t i : ℕ) : Bytes :=
  let B := encrypt W (block R 0 ++ block R i)
  let R := setBlock (setBlock R 0 (B.take 8)) i (B.drop 8)
  setBlock R 0 (Bytes.xor (block R 0) (wrapmask t))

/-- `k` steps of the inner loop, up to `i = n`. -/
def wrapInner (W : List UInt32) (base n : ℕ) : ℕ → Bytes → Bytes
  | 0, R => R
  | k + 1, R => wrapInner W base n k (wrapStep W R (base + (n - k)) (n - k))

/-- `k` rounds, up to `j = 5`. -/
def wrapOuter (W : List UInt32) (n : ℕ) : ℕ → Bytes → Bytes
  | 0, R => R
  | k + 1, R => wrapOuter W n k (wrapInner W (n * (5 - k)) n n R)

def wrap (key buf : Bytes) : Bytes :=
  wrapOuter (init key) (buf.length / 8 - 1) 6 buf

end Wsupp.Aes128
