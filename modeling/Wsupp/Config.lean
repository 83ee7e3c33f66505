import Wsupp.Bytes

/-!
# The PSK file

The file is read into one block of memory on demand, searched and edited there, and
written back later. A line is a pair of offsets into the block and a chunk a part of
a line, as the pointers of the source are; an edit that would move or write outside
the block has no result.

What the system calls answer, from opening the file to writing it back, comes in as
data, so that every failure can be asked for. Keys are written as hexadecimal digits
and names with escapes; both directions are here as the source has them, the limits
of their buffers included.
-/
namespace Wsupp

/-- Error numbers, as the calls return them. -/
abbrev ENOENT : Int := 2
abbrev EBUSY : Int := 16
abbrev EINVAL : Int := 22
abbrev ENAMETOOLONG : Int := 36
abbrev ENOSYS : Int := 38
abbrev ENETDOWN : Int := 100
abbrev EALREADY : Int := 114
abbrev ENOKEY : Int := 126

def PAGE : ℕ := 4096
def MAX_CONFIG_SIZE : ℕ := 64 * 1024

/-- `file` is the content of the file on disk, `config` the mapped block. The lengths
and the flag for a block that is to be written are those of the source. -/
structure Config where
  file : Option Bytes := none
  config : Option Bytes := none
  blocklen : ℕ := 0
  datalen : ℕ := 0
  modified : Bool := false
deriving DecidableEq, Repr

/-- Answers to the calls of one `load_config`. A file over the size limit leaves
`filesize` unset (`junk`) and makes the daemon read its standard input. -/
structure LoadIO where
  openErr : Bool := false
  statErr : Bool := false
  mmapErr : Bool := false
  readErr : Bool := false
  short : ℕ := 0
  junk : Int := 0
  stdin : Bytes := []

/-- Answers to `mremap`: failure, or whether the block moved. -/
structure RemapIO where
  err : Bool := false
  moved : Bool := false

/-- Answers to the calls of one `save_config`: the results of `write`. -/
structure SaveIO where
  openErr : Bool := false
  writes : List Int := []

namespace Config

def buf (c : Config) : Bytes := c.config.getD []

def alignPage (n : ℕ) : ℕ := n + (PAGE - n % PAGE) % PAGE

/-- The bytes `writeall` gets into the file; calls past the listed ones write all. -/
def writeall : List Int → Bytes → Bytes
  | [], b => b
  | wr :: wrs, b =>
      if b = [] ∨ wr ≤ 0 then [] else b.take wr.toNat ++ writeall wrs (b.drop wr.toNat)

def saveConfig (io : SaveIO) (c : Config) : Config :=
  if c.config = none ∨ ¬ c.modified then c
  else if io.openErr then c
  else { c with file := some (writeall io.writes (c.buf.take c.datalen)), modified := false }

/-- What the first descriptor refers to, and the size that goes with it. -/
def openStatConfig (io : LoadIO) (c : Config) : Option (Bytes × Int) :=
  match c.file with
  | none => none
  | some f =>
      if io.openErr ∨ io.statErr then none
      else if MAX_CONFIG_SIZE < f.length then some (io.stdin, io.junk)
      else some (f, f.length)

/-- `mmap_config_buf`. -/
def mmapConfigBuf (io : LoadIO) (filesize : Int) (c : Config) : Option Config :=
  if io.mmapErr ∨ filesize + 1024 ≤ 0 then none
  else
    let size := alignPage (filesize + 1024).toNat
    some { c with config := some (Bytes.zeros size), blocklen := size, datalen := 0, modified := false }

/-- A failed read leaves the block mapped and empty; a short one counts as whole. -/
def readConfigWhole (io : LoadIO) (src : Bytes) (filesize : Int) (c : Config) : Int × Config :=
  if filesize ≤ 0 then (0, c)
  else if io.readErr then (-1, c)
  else
    let n := min filesize.toNat src.length - io.short
    (0, { c with config := some (Bytes.memcpy c.buf src n) })

def loadConfig (io : LoadIO) (c : Config) : Int × Config :=
  if c.config.isSome then (0, c)
  else
    let (src, filesize) := (openStatConfig io c).getD ([], 0)
    match mmapConfigBuf io filesize c with
    | none => (-1, c)
    | some c =>
        match readConfigWhole io src filesize c with
        | (ret, c) => if ret < 0 then (ret, c) else (0, { c with datalen := filesize.toNat })

def isspace (c : UInt8) : Bool := c = 0x20 || c = 0x09 || c = 0x0A

def skipline (b : Bytes) (e : ℕ) : ℕ → ℕ → ℕ
  | 0, p => p
  | n + 1, p => if p < e ∧ b.at' p ≠ 0x0A then skipline b e n (p + 1) else p

/-- `setline`: no line when the pointer is outside the data. -/
def setline (c : Config) (p : ℕ) : Option (ℕ × ℕ) :=
  if c.datalen ≤ p then none else some (p, skipline c.buf c.datalen (c.datalen - p) p)

def firstline (c : Config) : Option (ℕ × ℕ) := c.setline 0

def nextline (c : Config) (ln : ℕ × ℕ) : Option (ℕ × ℕ) := c.setline (ln.2 + 1)

/-- A backslash takes the next byte with it, whatever that is. -/
def skiparg (b : Bytes) (e : ℕ) : ℕ → ℕ → ℕ
  | 0, p => p
  | n + 1, p =>
      if p < e ∧ ¬ isspace (b.at' p) then
        skiparg b e n (if b.at' p = 0x5C then p + 2 else p + 1)
      else p

def skipsep (b : Bytes) (e : ℕ) : ℕ → ℕ → ℕ
  | 0, p => p
  | n + 1, p => if p < e ∧ isspace (b.at' p) then skipsep b e n (p + 1) else p

/-- At most `nc` chunks from `p` on. -/
def splitFrom (b : Bytes) (e : ℕ) : ℕ → ℕ → List (ℕ × ℕ)
  | 0, _ => []
  | nc + 1, p =>
      if p < e then
        let q := skiparg b e (e - p) p
        (p, q) :: splitFrom b e nc (skipsep b e (e - q) q)
      else []

def splitLine (c : Config) (ln : ℕ × ℕ) (nc : ℕ) : List (ℕ × ℕ) :=
  splitFrom c.buf ln.2 nc (skipsep c.buf ln.2 (ln.2 - ln.1) ln.1)

def chunkeq (c : Config) (ck : ℕ × ℕ) (str : Bytes) : Bool :=
  ck.2 - ck.1 = str.length && c.buf.slice ck.1 str.length = str

/-- The loop of `find_line`, from a given line on. -/
def findFrom (c : Config) (i : ℕ) (val : Bytes) : ℕ → Option (ℕ × ℕ) → Option (ℕ × ℕ)
  | 0, _ => none
  | _, none => none
  | n + 1, some ln =>
      match (c.splitLine ln (i + 1))[i]? with
      | none => findFrom c i val n (c.nextline ln)
      | some ck => if c.chunkeq ck val then some ln else findFrom c i val n (c.nextline ln)

def findLine (c : Config) (i : ℕ) (val : Bytes) : Option (ℕ × ℕ) :=
  findFrom c i val (c.datalen + 1) c.firstline

def digits : Bytes := "0123456789ABCDEF".toUTF8.toList

/-- One SSID byte, escaped. -/
def fmtByte (x : UInt8) : Bytes :=
  if x = 0x5C then [0x5C, 0x5C]
  else if x = 0x20 then [0x5C, 0x20]
  else if x ≤ 0x20 then [0x5C, 0x78, digits.at' (x.toNat / 16), digits.at' (x.toNat % 16)]
  else [x]

/-- `fmt_ssid` at offset `p` of a buffer that ends at `e`. -/
def fmtSsid (p e : ℕ) : Bytes → Bytes
  | [] => []
  | x :: ssid => if e ≤ p + 5 then [] else fmtByte x ++ fmtSsid (p + (fmtByte x).length) e ssid

def findSsid (c : Config) (ssid : Bytes) : Option (ℕ × ℕ) := c.findLine 1 (fmtSsid 0 100 ssid)

/-- `strchr(digits, c)`: the terminating zero byte is found too. -/
def digit (x : UInt8) : Option ℕ :=
  let i := (digits ++ [0]).idxOf x
  if i ≤ 16 then some i else none

/-- The loop of `parse_bytes`: bytes stored before a failure stay stored. -/
def parseLoop : Bytes → Bytes → Int × Bytes
  | _, [] => (0, [])
  | h :: l :: str, d :: dst =>
      match digit h, digit l with
      | some hh, some ll =>
          let r := parseLoop str dst
          (r.1, UInt8.ofNat (hh * 16 + ll) :: r.2)
      | _, _ => (-EINVAL, d :: dst)
  | _, dst => (-EINVAL, dst)

def parseBytes (str dst : Bytes) : Int × Bytes :=
  if str.length ≠ 2 * dst.length then (-EINVAL, dst) else parseLoop str dst

def fmtBytes (data : Bytes) : Bytes :=
  data.flatMap fun x => [digits.at' (x.toNat / 16), digits.at' (x.toNat % 16)]

def remapConfig (io : RemapIO) (len : ℕ) (c : Config) : Option Config :=
  if io.err then none
  else
    let size := c.blocklen + alignPage len
    let b := c.buf.take c.blocklen
    some { c with config := some (b ++ Bytes.zeros (size - b.length)), blocklen := len }

def extendConfig (io : RemapIO) (len : Int) (c : Config) : Option Config :=
  let newdl := (c.datalen : Int) + len
  if newdl < 0 then none
  else if (c.blocklen : Int) < newdl then
    (remapConfig io newdl.toNat c).map fun c => { c with datalen := newdl.toNat }
  else some { c with datalen := newdl.toNat }

/-- `change_part`, which keeps to offsets and survives a moved block. -/
def changePart (io : RemapIO) (start e : ℕ) (text : Bytes) (c : Config) : Config :=
  let shlen := c.datalen - e
  match extendConfig io ((text.length : Int) - (e - start)) c with
  | none => c
  | some c' =>
      let b := c'.buf
      { c' with config := some (b.take start ++ text ++ b.slice e shlen ++
          b.drop (start + text.length + shlen)) }

/-- `insert_line` keeps a pointer over `extend_config`: if the block moved, the
write goes to unmapped memory. -/
def insertLine (io : RemapIO) (text : Bytes) (c : Config) : Option Config :=
  match extendConfig io (text.length + 1) c with
  | none => some c
  | some c' =>
      if c.blocklen < c.datalen + text.length + 1 ∧ io.moved then none
      else
        let b := c'.buf
        some { c' with config := some (b.take c.datalen ++ text ++ [0x0A] ++
            b.drop (c.datalen + text.length + 1)) }

/-- `drop_line`: past the last line without a newline the length of the move is
negative. -/
def dropLine (ln : ℕ × ℕ) (c : Config) : Option Config :=
  let shlen : Int := (c.datalen : Int) - ln.2 - 1
  match extendConfig {} (-((ln.2 : Int) - ln.1 + 1)) c with
  | none => some c
  | some c' =>
      if shlen < 0 then none
      else
        let b := c'.buf
        some { c' with
          config := some (b.take ln.1 ++ b.slice (ln.2 + 1) shlen.toNat ++ b.drop (ln.1 + shlen.toNat))
          modified := true }

def saveLine (io : RemapIO) (ln : Option (ℕ × ℕ)) (text : Bytes) (c : Config) : Option Config :=
  let r := match ln with
    | some (start, e) => some (changePart io start e text c)
    | none => insertLine io text c
  r.map fun c => { c with modified := true }

def gotPskFor (io : LoadIO) (ssid : Bytes) (c : Config) : Bool × Config :=
  match loadConfig io c with
  | (ret, c) => if ret ≠ 0 then (false, c) else ((c.findSsid ssid).isSome, c)

/-- `load_psk` into a given array. -/
def loadPsk (io : LoadIO) (ssid psk : Bytes) (c : Config) : Int × Bytes × Config :=
  match loadConfig io c with
  | (ret, c) =>
      if ret ≠ 0 then (-ENOKEY, psk, c)
      else match c.findSsid ssid with
        | none => (-ENOKEY, psk, c)
        | some ln =>
            match c.splitLine ln 2 with
            | [ck, _] =>
                let r := parseBytes (c.buf.slice ck.1 (ck.2 - ck.1)) psk
                (r.1, r.2, c)
            | _ => (-ENOKEY, psk, c)

def savePsk (io : LoadIO) (rio : RemapIO) (ssid psk : Bytes) (c : Config) : Option Config :=
  let text := fmtBytes psk ++ [0x20]
  let text := text ++ fmtSsid text.length 99 ssid
  match loadConfig io c with
  | (ret, c) => if ret ≠ 0 then some c else saveLine rio (c.findSsid ssid) text c

def dropPsk (io : LoadIO) (ssid : Bytes) (c : Config) : Option (Int × Config) :=
  match loadConfig io c with
  | (ret, c) =>
      if ret < 0 then some (ret, c)
      else match c.findSsid ssid with
        | none => some (-1, c)
        | some ln => (dropLine ln c).map fun c => (0, c)

end Config
end Wsupp
