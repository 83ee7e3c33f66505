import Wsupp.Eapol
import Wsupp.Memory
import Wsupp.Safety.Integrity
import Wsupp.Safety.KeyTransport

/-!
# What is read and written of a received packet

The functions of `Eapol` that examine a packet once more, with each access to the
packet and to `GTK`, up to the reply. They stay inside what was received, end, and
come to what the handlers of `Eapol` act on.

The frame is of any length, from any sender, in any state of the machine. The length
fields of the packet are compared with what was received before anything behind the
fixed part is read, and the lengths of the elements in the key data with the end of
it. Unwrapping writes to the packet as well; those accesses are of the same kind.
-/
namespace Wsupp
open Memory Reactive Prog Handler

inductive PacketRegion where
  | packet | gtk
deriving DecidableEq, Repr

abbrev Examining := Traced PacketRegion

/-- What the examination of a packet comes to: it is passed over, it aborts, or it is
one of the three packets with what the handlers need of it. -/
inductive Examined where
  | stray
  | ignored (why : String)
  | aborted (why : String)
  | packet1 (version : UInt8) (nonce replay : Bytes)
  | packet3 (idx : UInt8) (gtk rsc replay : Bytes)
  | group1 (idx : UInt8) (gtk rsc replay : Bytes)

/-- A number of bytes of the packet. -/
def readPacket (mem : Bytes) (off n : ℕ) : Examining Bytes := do
  Traced.touch .packet off n
  pure (mem.slice off n)

def readPacketByte (mem : Bytes) (off : ℕ) : Examining UInt8 := do
  Traced.touch .packet off 1
  pure (mem.at' off)

def readPacketBe16 (mem : Bytes) (off : ℕ) : Examining ℕ := do
  Traced.touch .packet off 2
  pure (mem.be16 off)

namespace Examining

/-- The loop over whole blocks: the state, and where it stops. -/
def blocks (mem : Bytes) (stop : ℕ) : ℕ → ℕ → Sha1.State → Examining (Sha1.State × ℕ)
  | 0, ptr, h => if ptr + 64 ≤ stop then Traced.cutOff else pure (h, ptr)
  | n + 1, ptr, h =>
      if ptr + 64 ≤ stop then do
        let blk ← readPacket mem ptr 64
        blocks mem stop n (ptr + 64) (Sha1.proc h blk)
      else pure (h, ptr)

def hashRest (h : Sha1.State) (mem : Bytes) (inlen prev : ℕ) : Examining Sha1.State := do
  let r ← blocks mem inlen inlen 0 h
  Traced.touch .packet r.2 ((inlen - r.2) % 64)
  pure (Sha1.last r.1 (mem.drop r.2) (inlen - r.2) (inlen + prev))

/-- `hmac_sha1` over the packet from its start. -/
def hmacSha1 (key : Bytes) (klen : Int) (mem : Bytes) (inlen : ℕ) : Examining Bytes := do
  let klen := (min (max klen 0) 64).toNat
  let inner ← hashRest (Sha1.proc Sha1.init (Sha1.hmacPad key klen 0x36)) mem inlen 64
  pure (Sha1.fini (Sha1.last (Sha1.proc Sha1.init (Sha1.hmacPad key klen 0x5C)) (Sha1.fini inner) 20 (64 + 20)))

/-- The result, and the packet with the field zeroed. -/
def checkMic (off : ℕ) (kck mem : Bytes) (len : ℕ) : Examining (UInt32 × Bytes) := do
  let copy ← readPacket mem off 16
  Traced.touch .packet off 16
  let mem := mem.poke off (Bytes.zeros 16)
  let hash ← hmacSha1 kck 16 mem len
  pure (memxcmp 16 hash copy, mem)

/-- One turn over the blocks `R` that begin at an offset. -/
def unwrapStep (base : ℕ) (W : List UInt32) (R : Bytes) (t i : ℕ) : Examining Bytes := do
  Traced.touch .packet base 8
  let R := Aes128.setBlock R 0 (Bytes.xor (Aes128.block R 0) (Aes128.wrapmask t))
  Traced.touch .packet base 8
  Traced.touch .packet (base + 8 * i) 8
  let B := Aes128.decrypt W (Aes128.block R 0 ++ Aes128.block R i)
  Traced.touch .packet base 8
  Traced.touch .packet (base + 8 * i) 8
  pure (Aes128.setBlock (Aes128.setBlock R 0 (B.take 8)) i (B.drop 8))

def unwrapInner (base : ℕ) (W : List UInt32) (nj : ℕ) : ℕ → Bytes → Examining Bytes
  | 0, R => pure R
  | i + 1, R => do
      let R ← unwrapStep base W R (nj + (i + 1)) (i + 1)
      unwrapInner base W nj i R

def unwrapOuter (base : ℕ) (W : List UInt32) (n : ℕ) : ℕ → Bytes → Examining Bytes
  | 0, R => pure R
  | j + 1, R => do
      let R ← unwrapInner base W (n * j) n R
      unwrapOuter base W n j R

def unwrapKey (base : ℕ) (kek buf : Bytes) (len : ℕ) : Examining (UInt32 × Bytes) :=
  if len % 8 ≠ 0 ∨ len < 16 then pure (-1, buf)
  else do
    let buf ← unwrapOuter base (Aes128.init kek) (len / 8 - 1) 6 buf
    Traced.touch .packet base 8
    pure (memxcmp 8 buf unwrapIv, buf)

/-- The key of so many bytes, at an offset. -/
def storeGtk (tkipgroup : Bool) (gtk : Bytes) (off : ℕ) (key : Bytes) (len : ℕ) : Examining (Option Bytes) :=
  if len ≠ (if tkipgroup then 32 else 16) then pure none
  else do
    Traced.touch .packet off 16
    Traced.touch .gtk 0 16
    if tkipgroup then do
      Traced.touch .packet (off + 24) 8
      Traced.touch .gtk 16 8
      Traced.touch .packet (off + 16) 8
      Traced.touch .gtk 24 8
      pure (some (key.take 16 ++ key.slice 24 8 ++ key.slice 16 8))
    else pure (some (Bytes.memcpy gtk key 16))

/-- The loop, at `ptr` of `len` bytes. -/
def fetchGtkFrom (base : ℕ) (tkipgroup : Bool) (gtk buf : Bytes) (len : ℕ) :
    ℕ → ℕ → Examining (Option (UInt8 × Bytes))
  | 0, ptr => if len ≤ ptr + 6 then pure none else Traced.cutOff
  | n + 1, ptr =>
      if len ≤ ptr + 6 then pure none
      else do
        Traced.touch .packet (base + ptr + 1) 1
        let kdlen := 2 + (buf.at' (ptr + 1)).toNat
        if len < ptr + kdlen then pure none
        else do
          Traced.touch .packet (base + ptr) 1
          if buf.at' ptr ≠ 0xDD then fetchGtkFrom base tkipgroup gtk buf len n (ptr + kdlen)
          else do
            Traced.touch .packet (base + ptr + 2) 4
            if buf.slice (ptr + 2) 4 ≠ kdeTypeGtk then fetchGtkFrom base tkipgroup gtk buf len n (ptr + kdlen)
            else if kdlen < 6 + 2 + 16 then fetchGtkFrom base tkipgroup gtk buf len n (ptr + kdlen)
            else do
              Traced.touch .packet (base + ptr + 6) 1
              if buf.at' (ptr + 6) &&& 3 = 0 then pure none
              else do
                let key ← storeGtk tkipgroup gtk (base + ptr + 8) (buf.slice (ptr + 8) (kdlen - 8)) (kdlen - 8)
                pure (key.map fun key => (buf.at' (ptr + 6) &&& 3, key))

def fetchGtk (base : ℕ) (tkipgroup : Bool) (gtk buf : Bytes) (len : ℕ) : Examining (Option (UInt8 × Bytes)) :=
  fetchGtkFrom base tkipgroup gtk buf len len 0

def ptype (mem : Bytes) (bits : ℕ) : Examining Bool := do
  let keyinfo ← readPacketBe16 mem 5
  pure (keyinfo &&& KI_TYPEMASK = KI_SHA &&
    keyinfo &&& (KI_PAIRWISE + KI_ACK + KI_SECURE + KI_MIC + KI_ENCRYPTED) = bits)

def recvPacket1 (mem : Bytes) : Examining Examined := do
  let type ← readPacketByte mem 4
  if type ≠ EAPOL_KEY_RSN then pure (.aborted "packet 1/4 wrong type")
  else do
    let bits ← ptype mem (KI_PAIRWISE + KI_ACK)
    if !bits then pure (.ignored "packet 1/4 wrong bits")
    else do
      let version ← readPacketByte mem 0
      let nonce ← readPacket mem 17 32
      let replay ← readPacket mem 9 8
      pure (.packet1 version nonce replay)

/-- The key data of a packet with the right MIC: what there is to take, or why not. -/
def keyData (s : Daemon) (mem : Bytes) (unwrap fetch : String)
    (taken : UInt8 → Bytes → Bytes → Bytes → Examined) : Examining Examined := do
  let paylen ← readPacketBe16 mem 97
  let r ← unwrapKey 99 s.KEK (mem.slice 99 paylen) paylen
  let mem := mem.poke 99 r.2
  if r.1 ≠ 0 then pure (.aborted unwrap)
  else do
    let found ← fetchGtk (99 + 8) s.ap.tkipgroup s.GTK (mem.slice (99 + 8) (paylen - 8)) (paylen - 8)
    match found with
    | none => pure (.aborted fetch)
    | some (idx, gtk) => do
        let rsc ← readPacket mem 65 6
        let replay ← readPacket mem 9 8
        pure (taken idx gtk rsc replay)

def recvPacket3 (s : Daemon) (mem : Bytes) : Examining Examined := do
  let paclen ← readPacketBe16 mem 2
  let resent ← ptype mem (KI_PAIRWISE + KI_ACK)
  if resent then pure (.aborted "packet 1/4 resend detected")
  else do
    let bits ← ptype mem (KI_PAIRWISE + KI_ACK + KI_MIC + KI_ENCRYPTED + KI_SECURE)
    if !bits then pure (.aborted "packet 3/4 wrong bits")
    else do
      let nonce ← readPacket mem 17 32
      if s.anonce ≠ nonce then pure (.aborted "packet 3/4 nonce changed")
      else do
        let replay ← readPacket mem 9 8
        if 0 ≤ Bytes.memcmp s.replay replay then pure (.aborted "packet 3/4 replay fail")
        else do
          let r ← checkMic EapolKey.micOffset s.KCK mem (4 + paclen)
          if r.1 ≠ 0 then pure (.aborted "packet 3/4 bad MIC")
          else keyData s r.2 "packet 3/4 cannot unwrap" "packet 3/4 cannot fetch GTK" .packet3

def recvGroup1 (s : Daemon) (mem : Bytes) : Examining Examined := do
  let paclen ← readPacketBe16 mem 2
  let type ← readPacketByte mem 4
  if type ≠ EAPOL_KEY_RSN then pure (.ignored "re-keying with a different key type")
  else do
    let bits ← ptype mem (KI_SECURE + KI_ENCRYPTED + KI_ACK + KI_MIC)
    if !bits then pure (.ignored "not a rekey request packet")
    else do
      let replay ← readPacket mem 9 8
      if 0 ≤ Bytes.memcmp s.replay replay then pure (.ignored "packet 1/2 replay")
      else do
        let r ← checkMic EapolKey.micOffset s.KCK mem (4 + paclen)
        if r.1 ≠ 0 then pure (.ignored "packet 1/2 bad MIC")
        else keyData s r.2 "packet 1/2 cannot unwrap" "packet 1/2 cannot fetch GTK" .group1

def dispatchEapol (s : Daemon) (mem : Bytes) : Examining Examined :=
  match s.eapolstate with
  | .waiting14 => recvPacket1 mem
  | .waiting34 => recvPacket3 s mem
  | .negotiated => recvGroup1 s mem
  | .idle | .waiting24 => pure (.ignored "unexpected packet")

/-- `handle_rawsock` with the bytes received. -/
def handleRawsock (s : Daemon) (sender mem : Bytes) : Examining Examined :=
  if s.ap.bssid ≠ sender.take 6 then pure .stray
  else if mem.length < EapolKey.size then pure (.ignored "packet too short")
  else do
    let paclen ← readPacketBe16 mem 2
    if paclen + 4 ≠ mem.length then pure (.ignored "packet size mismatch")
    else do
      let paylen ← readPacketBe16 mem 97
      if mem.length < EapolKey.size + paylen then pure (.ignored "truncated payload")
      else do
        let pactype ← readPacketByte mem 1
        if pactype ≠ EAPOL_KEY then pure (.ignored "not a KEY packet")
        else dispatchEapol s mem

end Examining

/-- In the packet, of so many bytes, or in the array of the key. -/
def InPacket (total : ℕ) (x : Access PacketRegion) : Prop :=
  match x.region with
  | .packet => x.off + x.len ≤ total
  | .gtk => x.off + x.len ≤ 32

section InPacket
variable {total base ptr off n len : ℕ} {mem buf R : Bytes} {W : List UInt32} {tkipgroup : Bool} {gtk : Bytes}

theorem readPacket_runs (h : off + n ≤ total) :
    Runs (InPacket total) (readPacket mem off n) (· = mem.slice off n) := by
  unfold readPacket
  simp only [runs_bind, runs_touch, runs_pure, and_true]
  exact h

theorem readPacketByte_runs (h : off + 1 ≤ total) :
    Runs (InPacket total) (readPacketByte mem off) (· = mem.at' off) := by
  unfold readPacketByte
  simp only [runs_bind, runs_touch, runs_pure, and_true]
  exact h

theorem readPacketBe16_runs (h : off + 2 ≤ total) :
    Runs (InPacket total) (readPacketBe16 mem off) (· = mem.be16 off) := by
  unfold readPacketBe16
  simp only [runs_bind, runs_touch, runs_pure, and_true]
  exact h

theorem ptype_runs (h : 7 ≤ total) (bits : ℕ) :
    Runs (InPacket total) (Examining.ptype mem bits) (· = ptype mem bits) := by
  rw [Examining.ptype]
  apply (readPacketBe16_runs h).bind
  exact runs_pure.mpr rfl

/-- The loop reads whole blocks of what is hashed and stops at its last one. -/
theorem blocks_runs (h : mem.length ≤ total) (hn : mem.length ≤ ptr + n) (hptr : ptr ≤ mem.length) (H : Sha1.State) :
    Runs (InPacket total) (Examining.blocks mem mem.length n ptr H) fun r =>
      r.2 ≤ mem.length ∧ Sha1.blocks n H (mem.drop ptr) = (r.1, mem.drop r.2) := by
  induction n generalizing ptr H with
  | zero =>
      have hend : ¬ ptr + 64 ≤ mem.length := by omega
      rw [Examining.blocks, if_neg hend, runs_pure]
      exact ⟨hptr, rfl⟩
  | succ n ih =>
      have hlen : (mem.drop ptr).length = mem.length - ptr := List.length_drop
      rw [Examining.blocks, Sha1.blocks]
      by_cases hblock : ptr + 64 ≤ mem.length
      · have hdrop : (mem.drop ptr).drop 64 = mem.drop (ptr + 64) := List.drop_drop
        rw [if_pos hblock, if_pos (by omega), hdrop]
        apply (readPacket_runs (by omega)).bind
        exact ih (by omega) hblock _
      · rw [if_neg hblock, if_neg (by omega), runs_pure]
        exact ⟨hptr, rfl⟩

theorem hashRest_runs (h : mem.length ≤ total) (H : Sha1.State) (prev : ℕ) :
    Runs (InPacket total) (Examining.hashRest H mem mem.length prev) (· = Sha1.hashRest H mem prev) := by
  rw [Examining.hashRest, Sha1.hashRest, runs_bind]
  apply (blocks_runs h (by omega) (Nat.zero_le _) H).mono
  intro r hr
  have hmod : (mem.length - r.2) % 64 ≤ mem.length - r.2 := Nat.mod_le ..
  have htail : InPacket total ⟨.packet, r.2, (mem.length - r.2) % 64⟩ := by
    change r.2 + (mem.length - r.2) % 64 ≤ total
    omega
  have hlen : (mem.drop r.2).length = mem.length - r.2 := List.length_drop
  have hblocks : Sha1.blocks mem.length H mem = (r.1, mem.drop r.2) := hr.2
  rw [runs_bind, runs_touch]
  constructor
  · exact htail
  · rw [runs_pure, hblocks, hlen]

theorem hmacSha1_runs (h : mem.length ≤ total) (key : Bytes) (klen : Int) :
    Runs (InPacket total) (Examining.hmacSha1 key klen mem mem.length) (· = Sha1.hmacSha1 key klen mem) := by
  rw [Examining.hmacSha1, Sha1.hmacSha1]
  apply (hashRest_runs h _ _).bind
  exact runs_pure.mpr rfl

theorem checkMic_runs (h : mem.length ≤ total) (hoff : off + 16 ≤ mem.length) (kck : Bytes) :
    Runs (InPacket total) (Examining.checkMic off kck mem mem.length)
      (· = (checkMic off kck mem, unsigned off mem)) := by
  have hlen : (unsigned off mem).length = mem.length := Bytes.length_poke hoff
  have hhash : Runs (InPacket total)
      (Examining.hmacSha1 kck 16 (unsigned off mem) (unsigned off mem).length)
      (· = Sha1.hmacSha1 kck 16 (unsigned off mem)) := hmacSha1_runs (hlen.trans_le h) kck 16
  rw [hlen] at hhash
  have hwrite : InPacket total ⟨.packet, off, 16⟩ := by
    change off + 16 ≤ total
    omega
  rw [Examining.checkMic]
  apply (readPacket_runs (by omega)).bind
  rw [runs_bind, runs_touch]
  constructor
  · exact hwrite
  · apply hhash.bind
    exact runs_pure.mpr rfl

theorem inPacket_block {i : ℕ} (h : base + 8 * (n + 1) ≤ total) (hi : i ≤ n) :
    InPacket total ⟨.packet, base + 8 * i, 8⟩ := by
  change base + 8 * i + 8 ≤ total
  omega

theorem unwrapStep_runs {i : ℕ} (h : base + 8 * (n + 1) ≤ total) (hi : i ≤ n) (t : ℕ) :
    Runs (InPacket total) (Examining.unwrapStep base W R t i) (· = Aes128.unwrapStep W R t i) := by
  have hfirst : InPacket total ⟨.packet, base, 8⟩ := inPacket_block h (Nat.zero_le n)
  have hother : InPacket total ⟨.packet, base + 8 * i, 8⟩ := inPacket_block h hi
  rw [Examining.unwrapStep]
  simp only [runs_bind, runs_touch, runs_pure]
  exact ⟨hfirst, hfirst, hother, hfirst, hother, rfl⟩

theorem unwrapInner_runs {i : ℕ} (h : base + 8 * (n + 1) ≤ total) (hi : i ≤ n) (nj : ℕ) (R : Bytes) :
    Runs (InPacket total) (Examining.unwrapInner base W nj i R) (· = Aes128.unwrapInner W nj i R) := by
  induction i generalizing R with
  | zero => exact runs_pure.mpr rfl
  | succ i ih =>
      rw [Examining.unwrapInner, Aes128.unwrapInner]
      apply (unwrapStep_runs h hi _).bind
      exact ih (by omega) _

theorem unwrapOuter_runs (h : base + 8 * (n + 1) ≤ total) (j : ℕ) (R : Bytes) :
    Runs (InPacket total) (Examining.unwrapOuter base W n j R) (· = Aes128.unwrapOuter W n j R) := by
  induction j generalizing R with
  | zero => exact runs_pure.mpr rfl
  | succ j ih =>
      rw [Examining.unwrapOuter, Aes128.unwrapOuter]
      apply (unwrapInner_runs h (Nat.le_refl n) _ _).bind
      exact ih _

theorem unwrapKey_runs (h : base + buf.length ≤ total) (kek : Bytes) :
    Runs (InPacket total) (Examining.unwrapKey base kek buf buf.length) (· = unwrapKey kek buf) := by
  rw [Examining.unwrapKey, unwrapKey]
  split_ifs with hodd
  · exact runs_pure.mpr rfl
  · have hblocks : base + 8 * (buf.length / 8 - 1 + 1) ≤ total := by omega
    have hfirst : InPacket total ⟨.packet, base, 8⟩ := inPacket_block hblocks (Nat.zero_le _)
    apply (unwrapOuter_runs hblocks 6 buf).bind
    rw [runs_bind, runs_touch, runs_pure]
    exact ⟨hfirst, rfl⟩

theorem storeGtk_runs (h : off + len ≤ total) (hlen : buf.length = len) :
    Runs (InPacket total) (Examining.storeGtk tkipgroup gtk off buf len) (· = storeGtk tkipgroup gtk buf) := by
  rw [Examining.storeGtk, storeGtk, hlen]
  by_cases hexp : len = if tkipgroup then 32 else 16
  · have hpacket {o k : ℕ} (hk : o + k ≤ len) : InPacket total ⟨.packet, off + o, k⟩ := by
      change off + o + k ≤ total
      omega
    have hgtk {o k : ℕ} (hk : o + k ≤ 32) : InPacket total ⟨.gtk, o, k⟩ := hk
    rw [if_neg (not_not.mpr hexp), if_neg (not_not.mpr hexp)]
    cases tkipgroup with
    | false =>
        have hexp : len = 16 := hexp
        have hkey : InPacket total ⟨.packet, off, 16⟩ := hpacket (o := 0) (by omega)
        simp only [runs_bind, runs_touch, Bool.false_eq_true, if_false, runs_pure, and_true]
        exact ⟨hkey, hgtk (by omega)⟩
    | true =>
        have hexp : len = 32 := hexp
        have hkey : InPacket total ⟨.packet, off, 16⟩ := hpacket (o := 0) (by omega)
        simp only [runs_bind, runs_touch, if_true, runs_pure, and_true]
        exact ⟨hkey, hgtk (by omega), hpacket (by omega), hgtk (by omega), hpacket (by omega), hgtk (by omega)⟩
  · rw [if_pos hexp, if_pos hexp]
    exact runs_pure.mpr rfl

/-- The walk over the key data; as two bytes at least are taken in each turn, it ends. -/
theorem fetchGtkFrom_runs (h : base + buf.length ≤ total) (hn : buf.length ≤ ptr + n) :
    Runs (InPacket total) (Examining.fetchGtkFrom base tkipgroup gtk buf buf.length n ptr)
      (· = fetchGtkFrom tkipgroup gtk buf n ptr) := by
  induction n generalizing ptr with
  | zero =>
      rw [Examining.fetchGtkFrom, if_pos (by omega)]
      exact runs_pure.mpr rfl
  | succ n ih =>
      have hinside {o k : ℕ} (hk : ptr + o + k ≤ buf.length) : InPacket total ⟨.packet, base + ptr + o, k⟩ := by
        change base + ptr + o + k ≤ total
        omega
      rw [Examining.fetchGtkFrom, fetchGtkFrom]
      by_cases hheader : buf.length ≤ ptr + 6
      · rw [if_pos hheader, if_pos hheader]
        exact runs_pure.mpr rfl
      rw [if_neg hheader, if_neg hheader, runs_bind, runs_touch]
      constructor
      · exact hinside (by omega)
      dsimp only
      generalize hkdlen : 2 + (buf.at' (ptr + 1)).toNat = kdlen
      by_cases hcut : buf.length < ptr + kdlen
      · rw [if_pos hcut, if_pos hcut]
        exact runs_pure.mpr rfl
      have hnext := ih (show buf.length ≤ ptr + kdlen + n by omega)
      rw [if_neg hcut, if_neg hcut, runs_bind, runs_touch]
      constructor
      · exact hinside (o := 0) (by omega)
      by_cases hmagic : buf.at' ptr = 0xDD
      swap
      · rw [if_pos hmagic, if_pos hmagic]
        exact hnext
      rw [if_neg (not_not.mpr hmagic), if_neg (not_not.mpr hmagic), runs_bind, runs_touch]
      constructor
      · exact hinside (by omega)
      by_cases htype : buf.slice (ptr + 2) 4 = kdeTypeGtk
      swap
      · rw [if_pos htype, if_pos htype]
        exact hnext
      rw [if_neg (not_not.mpr htype), if_neg (not_not.mpr htype)]
      by_cases hshort : kdlen < 6 + 2 + 16
      · rw [if_pos hshort, if_pos hshort]
        exact hnext
      rw [if_neg hshort, if_neg hshort, runs_bind, runs_touch]
      constructor
      · exact hinside (by omega)
      by_cases hidx : buf.at' (ptr + 6) &&& 3 = 0
      · rw [if_pos hidx, if_pos hidx]
        exact runs_pure.mpr rfl
      rw [if_neg hidx, if_neg hidx]
      apply (storeGtk_runs (by omega) (Bytes.length_slice (by omega))).bind
      exact runs_pure.mpr rfl

theorem fetchGtk_runs (h : base + buf.length ≤ total) :
    Runs (InPacket total) (Examining.fetchGtk base tkipgroup gtk buf buf.length) (· = fetchGtk tkipgroup gtk buf) :=
  fetchGtkFrom_runs h (by omega)

end InPacket

/-- Whatever else the daemon does with `GTK`: it is uploaded, and zeroed by `cleanup_keys`
and `reset_eapol_state`. -/
inductive KeyUse where
  | upload (tkipgroup : Bool)
  | cleanup
  | reset

def KeyUse.touch : KeyUse → Examining Unit
  | .upload tkipgroup => Traced.touch .gtk 0 (if tkipgroup then 32 else 16)
  | .cleanup => Traced.touch .gtk 0 32
  | .reset => do
      Traced.touch .gtk 0 32
      Traced.touch .gtk 0 32

def useKey : List KeyUse → Examining Unit
  | [] => pure ()
  | use :: uses => do
      use.touch
      useKey uses

theorem useKey_runs (total : ℕ) (uses : List KeyUse) : Runs (InPacket total) (useKey uses) fun _ => True := by
  have hgtk {k : ℕ} (hk : k ≤ 32) : InPacket total ⟨.gtk, 0, k⟩ := by
    change 0 + k ≤ 32
    omega
  induction uses with
  | nil => exact runs_pure.mpr trivial
  | cons use uses ih =>
      rw [useKey, runs_bind]
      cases use with
      | upload tkipgroup =>
          rw [KeyUse.touch, runs_touch]
          constructor
          · cases tkipgroup with
            | false => exact hgtk (by decide)
            | true => exact hgtk (by decide)
          · exact ih
      | cleanup =>
          rw [KeyUse.touch, runs_touch]
          exact ⟨hgtk (by decide), ih⟩
      | reset =>
          rw [KeyUse.touch, runs_bind, runs_touch, runs_touch]
          exact ⟨hgtk (by decide), hgtk (by decide), ih⟩

/-- What the handlers do with a packet that was examined. -/
def Examined.follow : Examined → Handler Unit
  | .stray => warn "EAPOL stray packet\n"
  | .ignored why => ignore why
  | .aborted why => xabort why
  | .packet1 version nonce replay => do
      update fun s => { s with version := version, anonce := nonce, replay := replay }
      call (.takePacket1 replay)
      fillRand
      pmkToPtk
      let s ← read
      if s.eapolsends then sendPacket2 else update fun s => { s with eapolstate := .waiting24 }
  | .packet3 idx gtk rsc replay => do
      let s ← read
      update fun s => { s with gtkindex := idx, GTK := gtk, RSC := rsc, replay := replay }
      call (.takePacket3 s.KCK s.KEK replay)
      sendPacket4
  | .group1 idx gtk rsc replay => do
      let s ← read
      update fun s => { s with gtkindex := idx, GTK := gtk, RSC := rsc, replay := replay }
      call (.takeGroup1 s.KCK s.KEK replay)
      sendGroup2

theorem be16_slice (b : Bytes) (off : ℕ) : b.be16 off = (b.slice off 2).be16 0 := by
  have hat {i : ℕ} (hi : i < 2) : (b.slice off 2).at' i = b.at' (off + i) := by
    rw [Bytes.slice, Bytes.at', Bytes.at', List.getD_eq_getElem?_getD, List.getD_eq_getElem?_getD,
      List.getElem?_take_of_lt hi, List.getElem?_drop]
  rw [Bytes.be16, Bytes.be16, hat (by decide), hat (by decide)]
  rfl

theorem wrappable_of_unwrapKey {kek buf : Bytes} (h : (unwrapKey kek buf).1 = 0) : Aes128.Wrappable buf := by
  by_contra hother
  rw [unwrapKey_other hother] at h
  exact absurd h (by decide : (-1 : UInt32) ≠ 0)

theorem length_unwrapKey (kek buf : Bytes) : (unwrapKey kek buf).2.length = buf.length := by
  by_cases hwhole : Aes128.Wrappable buf
  · rw [unwrapKey_wrappable hwhole]
    exact hwhole.length_unwrap
  · rw [unwrapKey_other hwhole]

section Examined
variable {s : Daemon} {sender ek : Bytes}

/-- A check made by the examination and the handler alike. -/
theorem runs_check {total : ℕ} {c : Prop} [Decidable c] {e : Examined} {m : Examining Examined} {h g : Handler Unit}
    (hfails : h s = e.follow s) (hpasses : ¬ c → Runs (InPacket total) m fun e => g s = e.follow s) :
    Runs (InPacket total) (if c then pure e else m) fun e => (if c then h else g) s = e.follow s := by
  by_cases hc : c
  · rw [if_pos hc, if_pos hc]
    exact runs_pure.mpr hfails
  · rw [if_neg hc, if_neg hc]
    exact hpasses hc

/-- The key data is examined in the packet of which the MIC was zeroed. -/
theorem keyData_runs (h : EapolKey.size + EapolKey.paylen ek ≤ ek.length) (cannotUnwrap cannotFetch : String)
    (taken : UInt8 → Bytes → Bytes → Bytes → Examined) :
    Runs (InPacket ek.length) (Examining.keyData s (unsigned 81 ek) cannotUnwrap cannotFetch taken)
      (· = if (unwrapKey s.KEK (EapolKey.payload ek)).1 ≠ 0 then .aborted cannotUnwrap
        else match fetchGtk s.ap.tkipgroup s.GTK ((unwrapKey s.KEK (EapolKey.payload ek)).2.drop 8) with
          | none => .aborted cannotFetch
          | some (idx, gtk) => taken idx gtk ((EapolKey.rsc ek).take 6) (EapolKey.replay ek)) := by
  have h : 99 + ek.be16 97 ≤ ek.length := h
  have hzeros : (Bytes.zeros 16).length = 16 := rfl
  have hafter {o n : ℕ} (ho : 97 ≤ o) : (unsigned 81 ek).slice o n = ek.slice o n :=
    Bytes.slice_poke_after (by omega) (by rw [hzeros]; omega)
  have hbefore {o n : ℕ} (ho : o + n ≤ 81) : (unsigned 81 ek).slice o n = ek.slice o n :=
    Bytes.slice_poke_before (by omega) ho
  have hlen : (unsigned 81 ek).length = ek.length := Bytes.length_poke (by rw [hzeros]; omega)
  have hpaylen : (unsigned 81 ek).be16 97 = ek.be16 97 := by
    rw [be16_slice, hafter (Nat.le_refl _), ← be16_slice]
  have hpayload : (EapolKey.payload ek).length = ek.be16 97 := Bytes.length_slice h
  rw [Examining.keyData]
  apply (readPacketBe16_runs (by omega)).bind
  rw [hpaylen, hafter (by decide)]
  have hunwrap : Runs (InPacket ek.length)
      (Examining.unwrapKey 99 s.KEK (EapolKey.payload ek) (EapolKey.payload ek).length)
      (· = unwrapKey s.KEK (EapolKey.payload ek)) := unwrapKey_runs (by omega) s.KEK
  rw [hpayload] at hunwrap
  apply hunwrap.bind
  dsimp only
  generalize hr : unwrapKey s.KEK (EapolKey.payload ek) = r
  have hlength : r.2.length = ek.be16 97 := by
    rw [← hr, length_unwrapKey, hpayload]
  split_ifs with hfails
  · exact runs_pure.mpr rfl
  have hwhole : Aes128.Wrappable (EapolKey.payload ek) :=
    wrappable_of_unwrapKey ((congrArg Prod.fst hr).trans (not_not.mp hfails))
  have hroom : 16 ≤ ek.be16 97 := hwhole.2.trans_eq hpayload
  have hdrop : (r.2.drop 8).length = ek.be16 97 - 8 := by
    rw [List.length_drop, hlength]
  have hdata : ((unsigned 81 ek).poke 99 r.2).slice (99 + 8) (ek.be16 97 - 8) = r.2.drop 8 := by
    rw [Bytes.slice_poke_in (by omega) (by omega)]
    exact List.take_of_length_le (Nat.le_of_eq hdrop)
  have hfetch : Runs (InPacket ek.length)
      (Examining.fetchGtk (99 + 8) s.ap.tkipgroup s.GTK (r.2.drop 8) (r.2.drop 8).length)
      (· = fetchGtk s.ap.tkipgroup s.GTK (r.2.drop 8)) := fetchGtk_runs (by omega)
  rw [hdrop] at hfetch
  rw [hdata]
  apply hfetch.bind
  cases hfound : fetchGtk s.ap.tkipgroup s.GTK (r.2.drop 8) with
  | none => exact runs_pure.mpr rfl
  | some found =>
      have hfront {o n : ℕ} (ho : o + n ≤ 81) : ((unsigned 81 ek).poke 99 r.2).slice o n = ek.slice o n := by
        rw [Bytes.slice_poke_before (by omega) (by omega), hbefore ho]
      have hrsc : (EapolKey.rsc ek).take 6 = ek.slice 65 6 := List.take_take
      dsimp only
      apply (readPacket_runs (by omega)).bind
      apply (readPacket_runs (by omega)).bind
      rw [hfront (by decide), hfront (by decide), hrsc]
      exact runs_pure.mpr rfl

/-- Packets 3/4 and 1/2 differ in what is done with the key data only. -/
theorem keyData_follows (hpayload : EapolKey.size + EapolKey.paylen ek ≤ ek.length) {cannotUnwrap cannotFetch : String}
    {taken : UInt8 → Bytes → Bytes → Bytes → Examined} {take : UInt8 → Bytes → Handler Unit}
    (htake : ∀ idx gtk, take idx gtk s =
      (taken idx gtk ((EapolKey.rsc ek).take 6) (EapolKey.replay ek)).follow s) :
    Runs (InPacket ek.length) (Examining.keyData s (unsigned 81 ek) cannotUnwrap cannotFetch taken) fun e =>
      (if (unwrapKey s.KEK (EapolKey.payload ek)).1 ≠ 0 then xabort cannotUnwrap
      else
        match fetchGtk s.ap.tkipgroup s.GTK ((unwrapKey s.KEK (EapolKey.payload ek)).2.drop 8) with
        | none => xabort cannotFetch
        | some (idx, gtk) => take idx gtk) s = e.follow s := by
  apply (keyData_runs hpayload _ _ _).mono
  intro e he
  rw [he]
  by_cases hunwrap : (unwrapKey s.KEK (EapolKey.payload ek)).1 ≠ 0
  · rw [if_pos hunwrap, if_pos hunwrap]
    rfl
  rw [if_neg hunwrap, if_neg hunwrap]
  cases fetchGtk s.ap.tkipgroup s.GTK ((unwrapKey s.KEK (EapolKey.payload ek)).2.drop 8) with
  | none => rfl
  | some found => exact htake found.1 found.2

theorem recvPacket1_runs (h : EapolKey.size ≤ ek.length) :
    Runs (InPacket ek.length) (Examining.recvPacket1 ek) fun e => recvPacket1 ek s = e.follow s := by
  have h : 99 ≤ ek.length := h
  have htype : Runs (InPacket ek.length) (readPacketByte ek 4) (· = EapolKey.type ek) :=
    readPacketByte_runs (by omega)
  rw [Examining.recvPacket1, recvPacket1]
  apply htype.bind
  split_ifs with hother hbits
  · exact runs_pure.mpr rfl
  · apply (ptype_runs (by omega) _).bind
    rw [if_pos hbits]
    exact runs_pure.mpr rfl
  · apply (ptype_runs (by omega) _).bind
    rw [if_neg hbits]
    apply (readPacketByte_runs (by omega)).bind
    apply (readPacket_runs (by omega)).bind
    apply (readPacket_runs (by omega)).bind
    exact runs_pure.mpr rfl

/-- A packet of the size it names, with a payload that fits. -/
theorem recvPacket3_runs (hsize : EapolKey.paclen ek + 4 = ek.length)
    (hpayload : EapolKey.size + EapolKey.paylen ek ≤ ek.length) :
    Runs (InPacket ek.length) (Examining.recvPacket3 s ek) fun e => recvPacket3 ek s = e.follow s := by
  have hlen : 99 + EapolKey.paylen ek ≤ ek.length := hpayload
  have hpaclen : 4 + EapolKey.paclen ek = ek.length := (Nat.add_comm _ _).trans hsize
  have hmicfits : EapolKey.micOffset + 16 ≤ ek.length := by
    change 81 + 16 ≤ ek.length
    omega
  have hpac : Runs (InPacket ek.length) (readPacketBe16 ek 2) (· = EapolKey.paclen ek) :=
    readPacketBe16_runs (by omega)
  have hnonce : Runs (InPacket ek.length) (readPacket ek 17 32) (· = EapolKey.nonce ek) :=
    readPacket_runs (by omega)
  have hreplay : Runs (InPacket ek.length) (readPacket ek 9 8) (· = EapolKey.replay ek) :=
    readPacket_runs (by omega)
  rw [Examining.recvPacket3, recvPacket3, read_bind]
  apply hpac.bind
  apply (ptype_runs (by omega) _).bind
  apply runs_check rfl
  intro _
  apply (ptype_runs (by omega) _).bind
  apply runs_check rfl
  intro _
  apply hnonce.bind
  apply runs_check rfl
  intro _
  apply hreplay.bind
  apply runs_check rfl
  intro _
  rw [hpaclen]
  apply (checkMic_runs (Nat.le_refl _) hmicfits _).bind
  apply runs_check rfl
  intro _
  apply keyData_follows hpayload
  intro idx gtk
  rw [Examined.follow, read_bind]
  rfl

theorem recvGroup1_runs (hsize : EapolKey.paclen ek + 4 = ek.length)
    (hpayload : EapolKey.size + EapolKey.paylen ek ≤ ek.length) :
    Runs (InPacket ek.length) (Examining.recvGroup1 s ek) fun e => recvGroup1 ek s = e.follow s := by
  have hlen : 99 + EapolKey.paylen ek ≤ ek.length := hpayload
  have hpaclen : 4 + EapolKey.paclen ek = ek.length := (Nat.add_comm _ _).trans hsize
  have hmicfits : EapolKey.micOffset + 16 ≤ ek.length := by
    change 81 + 16 ≤ ek.length
    omega
  have hpac : Runs (InPacket ek.length) (readPacketBe16 ek 2) (· = EapolKey.paclen ek) :=
    readPacketBe16_runs (by omega)
  have htype : Runs (InPacket ek.length) (readPacketByte ek 4) (· = EapolKey.type ek) :=
    readPacketByte_runs (by omega)
  have hreplay : Runs (InPacket ek.length) (readPacket ek 9 8) (· = EapolKey.replay ek) :=
    readPacket_runs (by omega)
  rw [Examining.recvGroup1, recvGroup1, read_bind]
  apply hpac.bind
  apply htype.bind
  apply runs_check rfl
  intro _
  apply (ptype_runs (by omega) _).bind
  apply runs_check rfl
  intro _
  apply hreplay.bind
  apply runs_check rfl
  intro _
  rw [hpaclen]
  apply (checkMic_runs (Nat.le_refl _) hmicfits _).bind
  apply runs_check rfl
  intro _
  apply keyData_follows hpayload
  intro idx gtk
  rw [Examined.follow, read_bind]
  rfl

theorem dispatchEapol_runs (hsize : EapolKey.paclen ek + 4 = ek.length)
    (hpayload : EapolKey.size + EapolKey.paylen ek ≤ ek.length) :
    Runs (InPacket ek.length) (Examining.dispatchEapol s ek) fun e => dispatchEapol ek s = e.follow s := by
  rw [Examining.dispatchEapol, dispatchEapol, read_bind]
  cases s.eapolstate with
  | idle => exact runs_pure.mpr rfl
  | waiting24 => exact runs_pure.mpr rfl
  | waiting14 => exact recvPacket1_runs (Nat.le_of_add_right_le hpayload)
  | waiting34 => exact recvPacket3_runs hsize hpayload
  | negotiated => exact recvGroup1_runs hsize hpayload

end Examined

/-- A packet is examined, in any state, with accesses to the bytes received and to the
array of the key only. The examination ends, and the handlers do what it comes to,
whatever use they make of the key then. -/
theorem handleRawsock_inside (s : Daemon) (sender frame : Bytes) (uses : List KeyUse) :
    Runs (InPacket (frame.take 1024).length)
      (do
        let e ← Examining.handleRawsock s sender (frame.take 1024)
        useKey uses
        pure e)
      fun e => handleRawsock sender frame s = e.follow s := by
  have hexamined : Runs (InPacket (frame.take 1024).length)
      (Examining.handleRawsock s sender (frame.take 1024))
      fun e => handleRawsock sender frame s = e.follow s := by
    rw [Examining.handleRawsock, handleRawsock, read_bind]
    generalize frame.take 1024 = ek
    apply runs_check rfl
    intro _
    apply runs_check rfl
    intro hshort
    have hlen : 99 ≤ ek.length := not_lt.mp hshort
    have hpac : Runs (InPacket ek.length) (readPacketBe16 ek 2) (· = EapolKey.paclen ek) :=
      readPacketBe16_runs (by omega)
    have hpay : Runs (InPacket ek.length) (readPacketBe16 ek 97) (· = EapolKey.paylen ek) :=
      readPacketBe16_runs (by omega)
    have htype : Runs (InPacket ek.length) (readPacketByte ek 1) (· = EapolKey.pactype ek) :=
      readPacketByte_runs (by omega)
    apply hpac.bind
    apply runs_check rfl
    intro hsize
    apply hpay.bind
    apply runs_check rfl
    intro hcut
    apply htype.bind
    apply runs_check rfl
    intro _
    exact dispatchEapol_runs (not_not.mp hsize) (not_lt.mp hcut)
  rw [runs_bind]
  apply hexamined.mono
  intro e he
  rw [runs_bind]
  apply (useKey_runs _ uses).mono
  intro _ _
  exact runs_pure.mpr he

end Wsupp
