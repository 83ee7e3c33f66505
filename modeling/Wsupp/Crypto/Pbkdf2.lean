import Wsupp.Crypto.Sha1

/-!
# Keys from passphrases

`pbkdf2_sha1`, and the functions of the wifi tool that read a passphrase and make a
PSK of it. Lengths and counters are C ints; what is undefined because one of them
overflows is `none` here. The last block is computed whole and cut, as in the
source, where it is copied into what is left of the output.

A passphrase is what the terminal gives up to the end of its first line, with a
limit of 255 bytes and no lower bound but one byte. The salt is the name of the
network, and there are 4096 iterations and 32 bytes of key.
-/
namespace Wsupp.Pbkdf2

def INT_MAX : ℕ := 0x7FFFFFFF

/-- SHA-1 output size. -/
def HS : ℕ := 20

/-- The first iterate: the salt with the number of the block behind it. -/
def F1 (P S : Bytes) (i : ℕ) : Option Bytes :=
  if INT_MAX < S.length + 4 then none
  else some (Sha1.hmacSha1 P P.length
    (S ++ [UInt8.ofNat (i >>> 24), UInt8.ofNat (i >>> 16), UInt8.ofNat (i >>> 8), UInt8.ofNat i]))

/-- The iterate after `U`, which it overwrites. -/
def Fc (U P : Bytes) : Bytes := Sha1.hmacSha1 P P.length (U.take HS)

def xorbuf (T U : Bytes) : Bytes := T.xor U

/-- `n` turns of the loop in `F`. -/
def turns (P : Bytes) : ℕ → Bytes → Bytes → Bytes
  | 0, _, T => T
  | n + 1, U, T => turns P n (Fc U P) (xorbuf T (Fc U P))

/-- The counter runs from 2 to `c` and then once more. -/
def F (P S : Bytes) (c i : ℕ) : Option Bytes := do
  let U ← F1 P S i
  if INT_MAX ≤ c then none else some (turns P (c - 1) U U)

/-- The blocks that fit whole, from the one numbered `i` on; `psk` is what has been
written. -/
def wholeBlocks (P S : Bytes) (c len : ℕ) : ℕ → ℕ → Bytes → Option (ℕ × Bytes)
  | 0, i, psk => some (i, psk)
  | fuel + 1, i, psk =>
      if INT_MAX < HS * i then none
      else if HS * i ≤ len then do
        let T ← F P S c i
        wholeBlocks P S c len fuel (i + 1) (psk ++ T)
      else some (i, psk)

/-- `pbkdf2_sha1`: the bytes written to `psk`, of which there are `len`. -/
def pbkdf2Sha1 (len : ℕ) (pass salt : Bytes) (iters : ℕ) : Option Bytes := do
  let (i, psk) ← wholeBlocks pass salt iters len (len + 1) 1 []
  if HS * (i - 1) < len then do
    let T ← F pass salt iters i
    some (psk ++ T.take (len - HS * (i - 1)))
  else some psk

/-- `put_psk`: the PSK that is sent for a passphrase. -/
def putPsk (ssid pass : Bytes) : Option Bytes := pbkdf2Sha1 32 pass ssid 4096

/-- `input_passphrase` on what `read` got: the newline goes, and a passphrase that is
empty or fills the buffer is refused. -/
def inputPassphrase (buf : Bytes) : Option Bytes :=
  if 256 ≤ buf.length then none
  else
    let pass := if buf.getLast? = some 10 then buf.dropLast else buf
    if pass = [] then none else some pass

end Wsupp.Pbkdf2
