import Wsupp.Apsel
import Wsupp.Crypto

/-!
# Key negotiation

The 4-way handshake of which the daemon plays the client, and the group key updates
after it. The machine moves on `eapolstate` alone; replies that cannot be sent and
packets that make no sense abort the connection. Packets are byte strings, with the
fields of `struct eapolkey` at their offsets, and every check of the source is made
in its order.

The nonce of the station comes from the system, which may fail to give one; then the
process ends. Keys are derived and cleared in the same places as in the source, and
what is sent to the kernel or to the access point is an output. The socket takes a
reply or refuses it, as the event says.
-/
namespace Wsupp
open Reactive Prog Handler

def EAPOL_KEY : UInt8 := 3
def EAPOL_KEY_RSN : UInt8 := 2

def KI_TYPEMASK : ℕ := 0x0007
def KI_SHA : ℕ := 2
def KI_PAIRWISE : ℕ := 2 ^ 3
def KI_ACK : ℕ := 2 ^ 7
def KI_MIC : ℕ := 2 ^ 8
def KI_SECURE : ℕ := 2 ^ 9
def KI_ENCRYPTED : ℕ := 2 ^ 12

-- fields of `struct eapolkey` in a received packet
namespace EapolKey

def size : ℕ := 99
def micOffset : ℕ := 81

def version (ek : Bytes) : UInt8 := ek.at' 0
def pactype (ek : Bytes) : UInt8 := ek.at' 1
def paclen (ek : Bytes) : ℕ := ek.be16 2
def type (ek : Bytes) : UInt8 := ek.at' 4
def keyinfo (ek : Bytes) : ℕ := ek.be16 5
def replay (ek : Bytes) : Bytes := ek.slice 9 8
def nonce (ek : Bytes) : Bytes := ek.slice 17 32
def rsc (ek : Bytes) : Bytes := ek.slice 65 8
def paylen (ek : Bytes) : ℕ := ek.be16 97
def payload (ek : Bytes) : Bytes := ek.slice size (paylen ek)

end EapolKey

/-- A packet as the daemon lays it out: `iv`, `rsc` and the reserved field are
zero in all of them. -/
def buildPacket (version : UInt8) (paclen keyinfo keylen : ℕ) (replay nonce mic payload : Bytes) :
    Bytes :=
  [version, EAPOL_KEY] ++ Bytes.ofBe16 paclen ++ [EAPOL_KEY_RSN] ++ Bytes.ofBe16 keyinfo ++
    Bytes.ofBe16 keylen ++ replay ++ nonce ++ Bytes.zeros 32 ++ mic ++
    Bytes.ofBe16 payload.length ++ payload

/-- The MIC is made over the packet with an empty MIC field. -/
def signPacket (kck : Bytes) (version : UInt8) (paclen keyinfo keylen : ℕ)
    (replay nonce payload : Bytes) : Bytes :=
  buildPacket version paclen keyinfo keylen replay nonce
    (makeMic kck (buildPacket version paclen keyinfo keylen replay nonce (Bytes.zeros 16) payload))
    payload

def packet2 (s : Daemon) : Bytes :=
  signPacket s.KCK s.version (EapolKey.size + s.ap.ies.length - 4) (KI_SHA + KI_PAIRWISE + KI_MIC) 16
    s.replay s.snonce s.ap.ies

def packet4 (s : Daemon) : Bytes :=
  signPacket s.KCK s.version (EapolKey.size - 4) (KI_SHA + KI_PAIRWISE + KI_MIC + KI_SECURE) 0
    s.replay (Bytes.zeros 32) []

/-- Packet 2/2 differs from its siblings: it names no key type, and its length
field counts the four bytes that go before the field. -/
def group2 (s : Daemon) : Bytes :=
  signPacket s.KCK s.version EapolKey.size (KI_MIC + KI_SECURE) 0 s.replay (Bytes.zeros 32) []

def ptype (ek : Bytes) (bits : ℕ) : Bool :=
  EapolKey.keyinfo ek &&& KI_TYPEMASK = KI_SHA &&
    EapolKey.keyinfo ek &&& (KI_PAIRWISE + KI_ACK + KI_SECURE + KI_MIC + KI_ENCRYPTED) = bits

def kdeTypeGtk : Bytes := [0x00, 0x0F, 0xAC, 0x01]

/-- The key as it is stored; with TKIP the MIC halves are swapped. -/
def storeGtk (tkipgroup : Bool) (gtk key : Bytes) : Option Bytes :=
  if key.length ≠ (if tkipgroup then 32 else 16) then none
  else if tkipgroup then some (key.take 16 ++ key.slice 24 8 ++ key.slice 16 8)
  else some (Bytes.memcpy gtk key 16)

/-- The loop of `fetch_gtk`; every turn takes two bytes at least. -/
def fetchGtkFrom (tkipgroup : Bool) (gtk buf : Bytes) : ℕ → ℕ → Option (UInt8 × Bytes)
  | 0, _ => none
  | n + 1, ptr =>
      if buf.length ≤ ptr + 6 then none
      else
        let kdlen := 2 + (buf.at' (ptr + 1)).toNat
        if buf.length < ptr + kdlen then none
        else if buf.at' ptr ≠ 0xDD then fetchGtkFrom tkipgroup gtk buf n (ptr + kdlen)
        else if buf.slice (ptr + 2) 4 ≠ kdeTypeGtk then fetchGtkFrom tkipgroup gtk buf n (ptr + kdlen)
        else if kdlen < 6 + 2 + 16 then fetchGtkFrom tkipgroup gtk buf n (ptr + kdlen)
        else if buf.at' (ptr + 6) &&& 3 = 0 then none
        else (storeGtk tkipgroup gtk (buf.slice (ptr + 8) (kdlen - 8))).map
          fun key => (buf.at' (ptr + 6) &&& 3, key)

/-- The index and the key found in unwrapped key data. -/
def fetchGtk (tkipgroup : Bool) (gtk buf : Bytes) : Option (UInt8 × Bytes) :=
  fetchGtkFrom tkipgroup gtk buf buf.length 0

def ignore (why : String) : Handler Unit := warn ("EAPOL " ++ why)

def xabort (why : String) : Handler Unit := do
  warn ("EAPOL " ++ why)
  abortConnection

/-- The keys `pmk_to_ptk` derives: 48 bytes, the KCK, the KEK and the PTK. -/
def ptkOf (s : Daemon) : Bytes :=
  let amac := Bytes.memcpy s.amac s.ap.bssid 6
  let (mac1, mac2) := if Bytes.memcmp s.smac amac < 0 then (s.smac, amac) else (amac, s.smac)
  let (nonce1, nonce2) :=
    if Bytes.memcmp s.snonce s.anonce < 0 then (s.snonce, s.anonce) else (s.anonce, s.snonce)
  prf480 s.PSK "Pairwise key expansion".toUTF8.toList mac1 mac2 nonce1 nonce2

def pmkToPtk : Handler Unit := do
  let s ← read
  let key := ptkOf s
  update fun s => { s with
    amac := Bytes.memcpy s.amac s.ap.bssid 6
    KCK := key.slice 0 16, KEK := key.slice 16 16, PTK := key.slice 32 16 }
  call (.pmkToPtk (key.slice 0 16) (key.slice 16 16))

def fillRand : Handler Unit := do
  match ← answerUrandom with
  | none => quit "open /dev/urandom: %m\n"
  | some rand =>
      if rand.length < 32 then quit "read /dev/urandom\n"
      else update fun s => { s with snonce := rand.take 32 }

def cleanupKeys : Handler Unit := update fun s => { s with
  anonce := Bytes.zeros 32, snonce := Bytes.zeros 32, PTK := Bytes.zeros 16, GTK := Bytes.zeros 32 }

/-- `reset_eapol_state` clears keys and nonces; `eapolstate`, `eapolsends` and
`replay` stay. -/
def resetEapolState : Handler Unit := do
  cleanupKeys
  update fun s => { s with
    KCK := Bytes.zeros 16, GTK := Bytes.zeros 32, KEK := Bytes.zeros 16
    snonce := Bytes.zeros 32, anonce := Bytes.zeros 32, amac := Bytes.zeros 6, version := 0 }
  call .resetEapolState

def primeEapolState : Handler Unit := do
  update fun s => { s with eapolstate := .waiting14, eapolsends := false }
  call .primeEapolState

/-- `send_packet`: whether the packet went out whole. A connection whose packets
do not go out is aborted here. -/
def sendPacket (buf : Bytes) (len : ℕ) : Handler Bool := do
  let s ← read
  let wr ← answerRawSend len
  emit (.eapol s.amac buf (wr = len))
  if wr = len then pure true
  else do
    warn (if wr < 0 then "send: %m\n" else "send incomplete\n")
    abortConnection
    pure false

def sendPacket2 : Handler Unit := do
  let s ← read
  let sent ← sendPacket (packet2 s) (EapolKey.size + s.ap.ies.length)
  if sent then update fun s => { s with eapolstate := .waiting34 } else pure ()

def sendPacket4 : Handler Unit := do
  let s ← read
  let sent ← sendPacket (packet4 s) EapolKey.size
  if sent then do
    update fun s => { s with eapolstate := .negotiated }
    uploadPtk
    uploadGtk
    cleanupKeys
    handleConnect
  else pure ()

def sendGroup2 : Handler Unit := do
  let s ← read
  let sent ← sendPacket (group2 s) EapolKey.size
  if sent then uploadGtk else pure ()

def allowEapolSends : Handler Unit := do
  let s ← read
  if s.eapolstate = .waiting14 then update fun s => { s with eapolsends := true }
  else sendPacket2

def recvPacket1 (ek : Bytes) : Handler Unit := do
  if EapolKey.type ek ≠ EAPOL_KEY_RSN then xabort "packet 1/4 wrong type"
  else if !ptype ek (KI_PAIRWISE + KI_ACK) then ignore "packet 1/4 wrong bits"
  else do
    update fun s => { s with
      version := EapolKey.version ek, anonce := EapolKey.nonce ek, replay := EapolKey.replay ek }
    call (.takePacket1 (EapolKey.replay ek))
    fillRand
    pmkToPtk
    let s ← read
    if s.eapolsends then sendPacket2 else update fun s => { s with eapolstate := .waiting24 }

/-- What packets 3/4 and 1/2 leave behind once their key data is accepted. -/
def takeKeyData (ek : Bytes) (idx : UInt8) (gtk : Bytes) : Handler Unit :=
  update fun s => { s with
    gtkindex := idx, GTK := gtk, RSC := (EapolKey.rsc ek).take 6, replay := EapolKey.replay ek }

def recvPacket3 (ek : Bytes) : Handler Unit := do
  let s ← read
  if ptype ek (KI_PAIRWISE + KI_ACK) then xabort "packet 1/4 resend detected"
  else if !ptype ek (KI_PAIRWISE + KI_ACK + KI_MIC + KI_ENCRYPTED + KI_SECURE) then
    xabort "packet 3/4 wrong bits"
  else if s.anonce ≠ EapolKey.nonce ek then xabort "packet 3/4 nonce changed"
  else if 0 ≤ Bytes.memcmp s.replay (EapolKey.replay ek) then xabort "packet 3/4 replay fail"
  else if checkMic EapolKey.micOffset s.KCK ek ≠ 0 then xabort "packet 3/4 bad MIC"
  else if (unwrapKey s.KEK (EapolKey.payload ek)).1 ≠ 0 then xabort "packet 3/4 cannot unwrap"
  else
    match fetchGtk s.ap.tkipgroup s.GTK ((unwrapKey s.KEK (EapolKey.payload ek)).2.drop 8) with
    | none => xabort "packet 3/4 cannot fetch GTK"
    | some (idx, gtk) => do
        takeKeyData ek idx gtk
        call (.takePacket3 s.KCK s.KEK (EapolKey.replay ek))
        sendPacket4

def recvGroup1 (ek : Bytes) : Handler Unit := do
  let s ← read
  if EapolKey.type ek ≠ EAPOL_KEY_RSN then ignore "re-keying with a different key type"
  else if !ptype ek (KI_SECURE + KI_ENCRYPTED + KI_ACK + KI_MIC) then
    ignore "not a rekey request packet"
  else if 0 ≤ Bytes.memcmp s.replay (EapolKey.replay ek) then ignore "packet 1/2 replay"
  else if checkMic EapolKey.micOffset s.KCK ek ≠ 0 then ignore "packet 1/2 bad MIC"
  else if (unwrapKey s.KEK (EapolKey.payload ek)).1 ≠ 0 then xabort "packet 1/2 cannot unwrap"
  else
    match fetchGtk s.ap.tkipgroup s.GTK ((unwrapKey s.KEK (EapolKey.payload ek)).2.drop 8) with
    | none => xabort "packet 1/2 cannot fetch GTK"
    | some (idx, gtk) => do
        takeKeyData ek idx gtk
        call (.takeGroup1 s.KCK s.KEK (EapolKey.replay ek))
        sendGroup2

def dispatchEapol (ek : Bytes) : Handler Unit := do
  let s ← read
  match s.eapolstate with
  | .waiting14 => recvPacket1 ek
  | .waiting34 => recvPacket3 ek
  | .negotiated => recvGroup1 ek
  | .idle | .waiting24 => ignore "unexpected packet"

/-- `handle_rawsock` on what `recvfrom` got: the source address and the bytes,
of which no more than the buffer holds. -/
def handleRawsock (sender frame : Bytes) : Handler Unit := do
  let s ← read
  let ek := frame.take 1024
  if s.ap.bssid ≠ sender.take 6 then warn "EAPOL stray packet\n"
  else if ek.length < EapolKey.size then ignore "packet too short"
  else if EapolKey.paclen ek + 4 ≠ ek.length then ignore "packet size mismatch"
  else if ek.length < EapolKey.size + EapolKey.paylen ek then ignore "truncated payload"
  else if EapolKey.pactype ek ≠ EAPOL_KEY then ignore "not a KEY packet"
  else dispatchEapol ek

end Wsupp
