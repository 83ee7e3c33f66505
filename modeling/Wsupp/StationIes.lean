import Wsupp.State

/-!
# Information elements of a scan result

What a station says about itself, of which the SSID and the ciphers are kept.
Offsets into an element replace the source's pointers.

An element is a type, a length and its contents; the walk stops at one that claims
more than there is. The SSID is cut to the 32 bytes of its array. Of an RSN element
the group cipher and the lists of pairwise ciphers and key managements are looked
at, of the vendor elements only that of WPA. What the functions read, access by
access, is the matter of another module.
-/
namespace Wsupp

/-- Asks for one byte more than it reads. -/
def get2le (b : Bytes) (p : ℕ) : ℕ :=
  if b.length < p + 3 then 0 else (b.at' p).toNat + 256 * (b.at' (p + 1)).toNat

def get4be (b : Bytes) (p : ℕ) : ℕ :=
  if b.length < p + 4 then 0
  else 0x1000000 * (b.at' p).toNat + 0x10000 * (b.at' (p + 1)).toNat +
    0x100 * (b.at' (p + 2)).toNat + (b.at' (p + 3)).toNat

/-- Whether one of `n` suites from offset `p` on is the given one. -/
def hasSuite (b : Bytes) (p n suite : ℕ) : Bool :=
  (List.range n).any fun i => get4be b (p + 4 * i) = suite

def parseRsnIe (type : ScanType) (b : Bytes) : ScanType :=
  if get2le b 0 ≠ 1 then type
  else
    let group := get4be b 2
    let pcnt := get2le b 6
    let pair := 8
    let acnt := get2le b (pair + 4 * pcnt)
    let akm := pair + 4 * pcnt + 2
    { type with
      rsnPTkip := type.rsnPTkip || hasSuite b pair pcnt 0x000FAC02
      rsnPCcmp := type.rsnPCcmp || hasSuite b pair pcnt 0x000FAC04
      rsnPsk := type.rsnPsk || hasSuite b akm acnt 0x000FAC02
      rsnGTkip := type.rsnGTkip || decide (group = 0x000FAC02)
      rsnGCcmp := type.rsnGCcmp || decide (group = 0x000FAC04) }

def msOui : Bytes := [0x00, 0x50, 0xf2]

def parseVendor (type : ScanType) (b : Bytes) : ScanType :=
  if b.length < 4 then type
  else if b.take 3 ≠ msOui then type
  else if b.at' 3 = 1 then { type with wpa := true }
  else if b.at' 3 = 4 then { type with wps := true }
  else type

/-- Trailing zero bytes are no part of the name. -/
def setStationSsid (sc : Scan) (b : Bytes) : Scan :=
  let len := min b.length SSIDLEN
  { sc with
    ssid := Bytes.memcpy sc.ssid b len
    slen := ((b.take len).reverse.dropWhile (· = 0)).length }

/-- No more than was there, and no more than fits. -/
theorem slen_setStationSsid (sc : Scan) (b : Bytes) : (setStationSsid sc b).slen ≤ min b.length SSIDLEN := by
  have hdrop := (List.dropWhile_sublist (· = (0 : UInt8)) (l := (b.take (min b.length SSIDLEN)).reverse)).length_le
  rw [List.length_reverse, List.length_take] at hdrop
  rw [setStationSsid]
  dsimp only
  omega

/-- Elements from the front of `b`; every turn takes two bytes at least. -/
def parseIes : ℕ → Scan → Bytes → Scan
  | 0, sc, _ => sc
  | n + 1, sc, b =>
      if b = [] then sc
      else
        let ielen := 2 + (b.at' 1).toNat
        if b.length < ielen then sc
        else
          let payload := b.slice 2 (b.at' 1).toNat
          let sc :=
            if b.at' 0 = 0 then setStationSsid sc payload
            else if b.at' 0 = 48 then { sc with type := parseRsnIe sc.type payload }
            else if b.at' 0 = 221 then { sc with type := parseVendor sc.type payload }
            else sc
          parseIes n sc (b.drop ielen)

def parseStationIes (sc : Scan) (b : Bytes) : Scan := parseIes b.length sc b

end Wsupp
