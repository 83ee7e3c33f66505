import Wsupp.Control.Session
import Wsupp.Safety.Integrity
import Wsupp.Safety.KeyTransport

/-!
# Outgoing frames

The packets the daemon sends, judged by the checks it makes itself of those it
receives. Packets 2/4 and 4/4 pass them; packet 2/2 of the group handshake has the
wrong length in its header and names no key type.

A packet is well formed if its lengths are those of its parts, its type and its
flags are those of the handshake, it carries the counter of the packet it answers
and the MIC is right under the current key. The two good builders are shown so for
every state with arrays of the right sizes, the third never is, and so a run goes
wrong exactly where it sends one.
-/
namespace Wsupp
open Reactive Prog View

/-- What stands in front of the MIC. -/
def packetHead (version : UInt8) (paclen keyinfo keylen : ℕ) (replay nonce : Bytes) : Bytes :=
  [version, EAPOL_KEY] ++ Bytes.ofBe16 paclen ++ [EAPOL_KEY_RSN] ++ Bytes.ofBe16 keyinfo ++
    Bytes.ofBe16 keylen ++ replay ++ nonce ++ Bytes.zeros 32

section Layout
variable {version : UInt8} {paclen keyinfo keylen : ℕ} {kck replay nonce mic payload : Bytes}

theorem be16_ofBe16 {n : ℕ} (h : n < 65536) : 256 * (UInt8.ofNat (n / 256)).toNat + (UInt8.ofNat n).toNat = n := by
  rw [UInt8.toNat_ofNat', UInt8.toNat_ofNat']
  omega

theorem length_packetHead (hreplay : replay.length = 8) (hnonce : nonce.length = 32) :
    (packetHead version paclen keyinfo keylen replay nonce).length = 81 := by
  simp [packetHead, Bytes.ofBe16, Bytes.zeros, hreplay, hnonce]

theorem buildPacket_eq : buildPacket version paclen keyinfo keylen replay nonce mic payload =
    packetHead version paclen keyinfo keylen replay nonce ++ mic ++ Bytes.ofBe16 payload.length ++ payload := rfl

theorem length_buildPacket (hreplay : replay.length = 8) (hnonce : nonce.length = 32) (hmic : mic.length = 16) :
    (buildPacket version paclen keyinfo keylen replay nonce mic payload).length = EapolKey.size + payload.length := by
  rw [buildPacket_eq]
  simp only [List.length_append, length_packetHead hreplay hnonce, hmic, Bytes.ofBe16, EapolKey.size,
    List.length_cons, List.length_nil]

theorem paylen_buildPacket (hreplay : replay.length = 8) (hnonce : nonce.length = 32) (hmic : mic.length = 16)
    (hpayload : payload.length < 65536) :
    EapolKey.paylen (buildPacket version paclen keyinfo keylen replay nonce mic payload) = payload.length := by
  have hhead : (packetHead version paclen keyinfo keylen replay nonce ++ mic).length = 97 := by
    rw [List.length_append, length_packetHead hreplay hnonce, hmic]
  rw [EapolKey.paylen, buildPacket_eq, List.append_assoc, Bytes.be16_append_right hhead]
  exact be16_ofBe16 hpayload

/-- The header reads as it was written. -/
structure Reads (paclen keyinfo : ℕ) (replay payload frame : Bytes) : Prop where
  length : frame.length = EapolKey.size + payload.length
  pactype : EapolKey.pactype frame = EAPOL_KEY
  paclen : EapolKey.paclen frame = paclen
  keyinfo : EapolKey.keyinfo frame = keyinfo
  replay : EapolKey.replay frame = replay
  paylen : EapolKey.paylen frame = payload.length
  payload : EapolKey.payload frame = payload

theorem buildPacket_reads (hreplay : replay.length = 8) (hnonce : nonce.length = 32) (hmic : mic.length = 16)
    (hpaclen : paclen < 65536) (hkeyinfo : keyinfo < 65536) (hpayload : payload.length < 65536) :
    Reads paclen keyinfo replay payload
      (buildPacket version paclen keyinfo keylen replay nonce mic payload) where
  length := length_buildPacket hreplay hnonce hmic
  pactype := rfl
  paclen := be16_ofBe16 hpaclen
  keyinfo := be16_ofBe16 hkeyinfo
  replay := by
    let front := [version, EAPOL_KEY] ++ Bytes.ofBe16 paclen ++ [EAPOL_KEY_RSN] ++ Bytes.ofBe16 keyinfo ++
      Bytes.ofBe16 keylen
    let tail := nonce ++ Bytes.zeros 32 ++ mic ++ Bytes.ofBe16 payload.length ++ payload
    have hfront : front.length = 9 := rfl
    have hpacket : buildPacket version paclen keyinfo keylen replay nonce mic payload =
        front ++ (replay ++ tail) := by
      simp only [buildPacket, front, tail, List.append_assoc]
    rw [EapolKey.replay, hpacket, ← Nat.add_zero 9, Bytes.slice_append_right hfront,
      Bytes.slice_append_left (by omega), Bytes.slice, List.drop_zero, List.take_of_length_le hreplay.le]
  paylen := paylen_buildPacket hreplay hnonce hmic hpayload
  payload := by
    have hfront : (packetHead version paclen keyinfo keylen replay nonce ++ mic ++
        Bytes.ofBe16 payload.length).length = EapolKey.size := by
      rw [List.length_append, List.length_append, length_packetHead hreplay hnonce, hmic]
      rfl
    rw [EapolKey.payload, paylen_buildPacket hreplay hnonce hmic hpayload, buildPacket_eq, ← Nat.add_zero EapolKey.size,
      Bytes.slice_append_right hfront, Bytes.slice, List.drop_zero, List.take_length]

/-- The MIC is written over what stood in its field. -/
theorem poke_buildPacket (hreplay : replay.length = 8) (hnonce : nonce.length = 32) {field : Bytes}
    (hfield : field.length = mic.length) :
    (buildPacket version paclen keyinfo keylen replay nonce field payload).poke EapolKey.micOffset mic =
      buildPacket version paclen keyinfo keylen replay nonce mic payload := by
  let head := packetHead version paclen keyinfo keylen replay nonce
  let tail := Bytes.ofBe16 payload.length ++ payload
  have hhead : head.length = EapolKey.micOffset := length_packetHead hreplay hnonce
  have hpacket (field : Bytes) : buildPacket version paclen keyinfo keylen replay nonce field payload =
      head ++ (field ++ tail) := by
    rw [buildPacket_eq, List.append_assoc, List.append_assoc]
  have hfront : (head ++ field).length = EapolKey.micOffset + mic.length := by
    rw [List.length_append, hhead, hfield]
  rw [hpacket, hpacket, Bytes.poke, List.take_left' hhead, ← List.append_assoc head field tail,
    List.drop_left' hfront, List.append_assoc]

/-- A packet that was signed has the MIC it is checked for. -/
theorem checkMic_signPacket (hreplay : replay.length = 8) (hnonce : nonce.length = 32) :
    checkMic EapolKey.micOffset kck (signPacket kck version paclen keyinfo keylen replay nonce payload) = 0 := by
  let packet := buildPacket version paclen keyinfo keylen replay nonce (Bytes.zeros 16) payload
  have hmic : (makeMic kck packet).length = 16 := length_makeMic kck packet
  have hroom : EapolKey.micOffset + 16 ≤ packet.length := by
    rw [length_buildPacket hreplay hnonce rfl]
    exact Nat.le_add_right_of_le (by decide)
  have hunsigned : unsigned EapolKey.micOffset packet = packet := poke_buildPacket hreplay hnonce rfl
  have hsigned : packet.poke EapolKey.micOffset (makeMic kck packet) =
      signPacket kck version paclen keyinfo keylen replay nonce payload := poke_buildPacket hreplay hnonce hmic.symm
  rw [← hsigned, checkMic_poke hroom hmic, hunsigned]

end Layout

/-- The packets the daemon builds: 2/4 and 4/4 of the pairwise handshake and 2/2 of the
group handshake. -/
inductive Outgoing where
  | packet2 | packet4 | group2
deriving DecidableEq

def Outgoing.frame (s : Daemon) : Outgoing → Bytes
  | .packet2 => Wsupp.packet2 s
  | .packet4 => Wsupp.packet4 s
  | .group2 => Wsupp.group2 s

/-- The arrays have their sizes, and the IEs fit in the packet buffer. -/
def Daemon.FramesFit (s : Daemon) : Prop :=
  s.replay.length = 8 ∧ s.snonce.length = 32 ∧ EapolKey.size + s.ap.ies.length ≤ 1024

instance (s : Daemon) : Decidable s.FramesFit :=
  inferInstanceAs (Decidable (s.replay.length = 8 ∧ s.snonce.length = 32 ∧ EapolKey.size + s.ap.ies.length ≤ 1024))

/-- The checks of `handle_rawsock`, the key type of `ptype`, the counter of the packet
that is answered and the MIC. -/
structure WellFormed (replay kck frame : Bytes) : Prop where
  room : frame.length ≤ 1024
  size : EapolKey.size ≤ frame.length
  paclen : EapolKey.paclen frame + 4 = frame.length
  payload : EapolKey.size + EapolKey.paylen frame ≤ frame.length
  pactype : EapolKey.pactype frame = EAPOL_KEY
  keytype : EapolKey.keyinfo frame &&& KI_TYPEMASK = KI_SHA
  replay : EapolKey.replay frame = replay
  mic : checkMic EapolKey.micOffset kck frame = 0

section Built
variable {s : Daemon} {paclen keyinfo keylen : ℕ} {nonce payload : Bytes}

theorem signPacket_reads (hreplay : s.replay.length = 8) (hnonce : nonce.length = 32) (hpaclen : paclen < 65536)
    (hkeyinfo : keyinfo < 65536) (hpayload : payload.length < 65536) :
    Reads paclen keyinfo s.replay payload
      (signPacket s.KCK s.version paclen keyinfo keylen s.replay nonce payload) :=
  buildPacket_reads hreplay hnonce (length_makeMic _ _) hpaclen hkeyinfo hpayload

/-- A packet whose header counts its bytes and names the key type is in order. -/
theorem signPacket_wellFormed (hreplay : s.replay.length = 8) (hnonce : nonce.length = 32)
    (hpaclen : paclen + 4 = EapolKey.size + payload.length) (hkeyinfo : keyinfo < 65536)
    (hkeytype : keyinfo &&& KI_TYPEMASK = KI_SHA) (hroom : EapolKey.size + payload.length ≤ 1024) :
    WellFormed s.replay s.KCK (signPacket s.KCK s.version paclen keyinfo keylen s.replay nonce payload) := by
  have h : Reads paclen keyinfo s.replay payload
      (signPacket s.KCK s.version paclen keyinfo keylen s.replay nonce payload) :=
    signPacket_reads hreplay hnonce (by omega) hkeyinfo (by omega)
  constructor
  · rw [h.length]
    exact hroom
  · rw [h.length]
    exact Nat.le_add_right ..
  · rw [h.length, h.paclen]
    exact hpaclen
  · rw [h.length, h.paylen]
  · exact h.pactype
  · rw [h.keyinfo]
    exact hkeytype
  · exact h.replay
  · exact checkMic_signPacket hreplay hnonce

end Built

theorem Outgoing.wellFormed {s : Daemon} (h : s.FramesFit) {reply : Outgoing} (hreply : reply ≠ .group2) :
    WellFormed s.replay s.KCK (reply.frame s) := by
  obtain ⟨hreplay, hnonce, hroom⟩ := h
  cases reply with
  | packet2 =>
      apply signPacket_wellFormed hreplay hnonce _ (by decide) (by decide) hroom
      simp only [EapolKey.size]
      omega
  | packet4 => exact signPacket_wellFormed hreplay (by rfl) (by decide) (by decide) (by decide) (by decide)
  | group2 => exact absurd rfl hreply

/-- The header of packet 2/2 counts four bytes too many. -/
theorem group2_malformed {s : Daemon} (h : s.FramesFit) (replay kck : Bytes) :
    ¬ WellFormed replay kck (group2 s) := by
  intro hwell
  have hreads : Reads EapolKey.size (KI_MIC + KI_SECURE) s.replay [] (group2 s) :=
    signPacket_reads h.1 (by rfl) (by decide) (by decide) (by decide)
  have hpaclen := hwell.paclen
  rw [hreads.paclen, hreads.length, List.length_nil] at hpaclen
  omega

/-- The counter of the packet to be answered, and the key its answer is signed with, as
the monitor has seen them last. -/
structure Answering where
  replay : Bytes
  kck : Bytes
deriving DecidableEq

def Daemon.answering (s : Daemon) : Answering := ⟨s.replay, s.KCK⟩

def answerMonitor : Monitor Act Answering where
  next m
    | .call (.takePacket1 r) | .call (.takePacket3 _ _ r) | .call (.takeGroup1 _ _ r) => { m with replay := r }
    | .call (.pmkToPtk kck _) => { m with kck := kck }
    | .call .resetEapolState => { m with kck := Bytes.zeros 16 }
    | _ => m
  ok m
    | .eapol _ frame _ => WellFormed m.replay m.kck frame
    | _ => True

def Act.packet : Act → Bool
  | .eapol .. => true
  | _ => false

theorem packets_eapol (dest frame : Bytes) (sent : Bool) (ks : List Act) :
    (Act.eapol dest frame sent :: ks).countP Act.packet = ks.countP Act.packet + 1 := List.countP_cons_of_pos rfl

theorem packets_call (c : Call) (ks : List Act) :
    (Act.call c :: ks).countP Act.packet = ks.countP Act.packet := List.countP_cons_of_neg (by simp [Act.packet])

def Silent (ks : List Act) : Prop := ∀ a ∈ ks, a.packet = false

theorem Silent.accepts {ks : List Act} (h : Silent ks) (m : Answering) : answerMonitor.Accepts m ks := by
  induction ks generalizing m with
  | nil => trivial
  | cons a ks ih =>
      have ha := h a List.mem_cons_self
      refine ⟨?_, ih (fun b hb => h b (List.mem_cons_of_mem _ hb)) _⟩
      cases a with
      | eapol dest frame sent => cases ha
      | _ => trivial

theorem Radio.silent {ks : List Act} (h : Radio ks) : Silent ks := by
  intro a ha
  have hradio := h a ha
  cases a with
  | eapol dest frame sent => cases hradio
  | _ => rfl

/-- The first packet to be sent is `reply`, made of what the monitor holds by then. -/
inductive Sends (reply : Outgoing) : Answering → List Act → Prop where
  | packet (s : Daemon) (dest sent ks) : s.FramesFit →
      Sends reply s.answering (.eapol dest (reply.frame s) sent :: ks)
  | skip (c : Call) {m ks} : Sends reply (answerMonitor.next m (.call c)) ks → Sends reply m (.call c :: ks)

theorem Sends.append {reply : Outgoing} {m : Answering} {ks : List Act} (h : Sends reply m ks) (ks' : List Act) :
    Sends reply m (ks ++ ks') := by
  induction h with
  | packet s dest sent ks hfits => exact .packet s dest sent (ks ++ ks') hfits
  | skip c h ih => exact .skip c ih

/-- A reply in order, if it is the only one. -/
theorem Sends.accepts {reply : Outgoing} {m : Answering} {ks : List Act} (h : Sends reply m ks)
    (hreply : reply ≠ .group2) (hone : ks.countP Act.packet ≤ 1) : answerMonitor.Accepts m ks := by
  induction h with
  | packet s dest sent ks hfits =>
      refine ⟨Outgoing.wellFormed hfits hreply, Silent.accepts ?_ _⟩
      rw [packets_eapol] at hone
      have hnone : ks.countP Act.packet = 0 := by omega
      intro a ha
      exact eq_false_of_ne_true (List.countP_eq_zero.mp hnone a ha)
  | skip c h ih =>
      rw [packets_call] at hone
      exact ⟨trivial, ih hone⟩

theorem Sends.rejects {m : Answering} {ks : List Act} (h : Sends .group2 m ks) :
    ¬ answerMonitor.Accepts m ks := by
  induction h with
  | packet s dest sent ks hfits => exact fun h => group2_malformed hfits _ _ h.1
  | skip c h ih => exact fun h => ih h.2

theorem answerMonitor_hidden (a : Act) (h : a.shown = false) : answerMonitor.Ignores a := by
  intro m
  cases a with
  | call c => cases h
  | eapol dest frame sent => cases h
  | _ => exact ⟨rfl, trivial⟩

theorem Radio.answerMonitor {ks : List Act} (h : Radio ks) (m : Answering) :
    Wsupp.answerMonitor.run m ks = m := by
  refine (h.ignored (fun a ha m => ?_) m).1
  cases a with
  | nl cmd sent => exact ⟨rfl, trivial⟩
  | nlAck cmd sent => exact ⟨rfl, trivial⟩
  | _ => cases ha

theorem HandleConnect.answerMonitor {c : Control} {ks : List Act} {o : Outcome Unit Control}
    (h : HandleConnect c ks o) (m : Answering) :
    Wsupp.answerMonitor.run m ks = m ∧ ks.countP Act.packet = 0 := by
  cases h with
  | connects _ _ _ _ _ => exact ⟨rfl, rfl⟩
  | ends => exact ⟨rfl, rfl⟩

theorem Radio.packets {ks : List Act} (h : Radio ks) : ks.countP Act.packet = 0 := by
  apply List.countP_eq_zero.mpr
  intro a ha
  rw [h.silent a ha]
  decide

theorem Session.packets {s : Daemon} {k : EventKind} {ks : List Act} {o : Outcome Unit Control}
    (h : Session s k ks o) : ks.countP Act.packet ≤ 1 := by
  cases h with
  | leaves _ h => exact h.radio.packets.le.trans (Nat.zero_le 1)
  | resets as _ _ h => exact (packets_call ..).le.trans (h.radio.packets.le.trans (Nat.zero_le 1))
  | snaps as _ _ => decide
  | primes bssid freq ssid ies sent _ => exact (packets_call ..).le.trans (Nat.zero_le 1)
  | allows _ _ _ => decide
  | sends dest frame _ _ _ => exact le_refl 1
  | overwrites dest frame sent _ _ _ => exact le_refl 1
  | packet1_ends r _ _ h => exact (packets_call ..).le.trans (h.packets.le.trans (Nat.zero_le 1))
  | packet1_early r kck kek _ _ _ => exact Nat.zero_le 1
  | packet1_sent r kck kek dest frame _ _ _ _ => exact le_refl 1
  | packet1_fails r kck kek dest frame _ _ _ _ h =>
      rw [packets_call, packets_call, packets_eapol, h.radio.packets]
  | packet3_sent r dest frame _ _ _ _ h =>
      rw [packets_call, packets_eapol, packets_call, packets_call, (h.answerMonitor ⟨[], []⟩).2]
  | packet3_fails r dest frame _ _ _ _ h => rw [packets_call, packets_eapol, h.radio.packets]
  | group1_sent r dest frame _ _ _ _ => exact le_refl 1
  | group1_fails r dest frame _ _ _ _ h => rw [packets_call, packets_eapol, h.radio.packets]

/-- What the monitor holds is what the daemon holds. -/
def Control.answering (c : Control) : Answering := ⟨c.replay, c.KCK⟩

theorem Away.answering {c c' : Control} (h : Away c c') : c'.answering = c.answering := by
  rw [Control.answering, h.replay, h.kck]
  rfl

theorem Session.answering {s : Daemon} {k : EventKind} {ks : List Act} {c' : Control}
    (h : Session s k ks (.goes () c')) : answerMonitor.run s.answering ks = c'.answering := by
  cases h with
  | leaves _ h => exact (h.1.answerMonitor _).trans h.2.answering.symm
  | resets as _ _ h => exact (h.1.answerMonitor _).trans h.2.answering.symm
  | snaps as _ _ => rfl
  | primes bssid freq ssid ies sent _ => rfl
  | allows _ _ _ => rfl
  | sends dest frame _ _ _ => rfl
  | overwrites dest frame sent _ _ _ => rfl
  | packet1_early r kck kek _ _ _ => rfl
  | packet1_sent r kck kek dest frame _ _ _ _ => rfl
  | packet1_fails r kck kek dest frame _ _ _ _ h => exact (h.1.answerMonitor _).trans h.2.answering.symm
  | packet3_sent r dest frame _ _ _ _ h => exact (h.answerMonitor _).1.trans h.away.answering.symm
  | packet3_fails r dest frame _ _ _ _ h => exact (h.1.answerMonitor _).trans h.2.answering.symm
  | group1_sent r dest frame _ _ _ _ => rfl
  | group1_fails r dest frame _ _ _ _ h => exact (h.1.answerMonitor _).trans h.2.answering.symm

/-- What is sent is the packet given, whatever becomes of it. -/
theorem sendPacket_sends (reply : Outgoing) {s : Daemon} (hfits : s.FramesFit) (len : ℕ)
    (f : Bool → Handler Unit) :
    control.Does (do
      let sent ← sendPacket (reply.frame s) len
      f sent) s fun ks _ => Sends reply s.answering ks := by
  have hsend : control.Does (sendPacket (reply.frame s) len) s fun ks _ => Sends reply s.answering ks := by
    unfold sendPacket Handler.answerRawSend
    rw [does_read_bind, does_answer_bind, does_emit_bind]
    exact does_of_forall fun ks o => .packet s s.amac _ ks hfits
  refine does_bind hsend ?_ fun ks h => h
  intro ks sent c h s' hc
  exact does_of_forall fun ks' o => h.append ks'

theorem sendPacket2_sends {s : Daemon} (hfits : s.FramesFit) :
    control.Does sendPacket2 s fun ks _ => Sends .packet2 s.answering ks := by
  unfold sendPacket2
  rw [does_read_bind]
  exact sendPacket_sends .packet2 hfits ..

theorem sendPacket4_sends {s : Daemon} (hfits : s.FramesFit) :
    control.Does sendPacket4 s fun ks _ => Sends .packet4 s.answering ks := by
  unfold sendPacket4
  rw [does_read_bind]
  exact sendPacket_sends .packet4 hfits ..

theorem sendGroup2_sends {s : Daemon} (hfits : s.FramesFit) :
    control.Does sendGroup2 s fun ks _ => Sends .group2 s.answering ks := by
  unfold sendGroup2
  rw [does_read_bind]
  exact sendPacket_sends .group2 hfits ..

/-- Nothing is sent, or a packet in order. -/
def Orderly (m : Answering) (ks : List Act) : Prop :=
  Silent ks ∨ ∃ reply, reply ≠ .group2 ∧ Sends reply m ks

section Packets
variable {s : Daemon} {ek : Bytes}

theorem recvPacket1_sends (hfits : s.FramesFit) (hek : (EapolKey.replay ek).length = 8)
    (h : packet1Verdict ek = .taken) :
    control.Does (recvPacket1 ek) s fun ks _ => Orderly s.answering ks := by
  refine recvPacket1_keyed h (fun ks _ hq => .inl ?_) ?_
  · intro a ha
    rcases List.mem_cons.mp ha with rfl | ha
    · rfl
    · exact hq.radio.silent a ha
  · intro kck kek s' _ hc hap _ hnonce
    split
    · have hfits' : s'.FramesFit := by
        refine ⟨?_, hnonce, hap ▸ hfits.2.2⟩
        rw [hc]
        exact hek
      refine does_mono (sendPacket2_sends hfits') fun ks _ hsends => .inr ⟨.packet2, by decide, .skip _ (.skip _ ?_)⟩
      have hanswering : s'.answering = answerMonitor.next (answerMonitor.next s.answering
          (.call (.takePacket1 (EapolKey.replay ek)))) (.call (.pmkToPtk kck kek)) := by
        rw [Daemon.answering, hc]
        rfl
      rw [← hanswering]
      exact hsends
    · exact .inl (by simp [Silent, Act.packet])

theorem recvPacket3_sends (hfits : s.FramesFit) (hek : (EapolKey.replay ek).length = 8)
    (h : packet3Verdict s ek = .taken) :
    control.Does (recvPacket3 ek) s fun ks _ => Sends .packet4 s.answering ks := by
  obtain ⟨idx, gtk, htaken⟩ := recvPacket3_taken h
  rw [does_congr htaken]
  unfold takeKeyData Handler.call
  rw [does_update_bind, does_emit_bind]
  exact does_mono (sendPacket4_sends ⟨hek, hfits.2⟩) fun ks _ hsends => .skip _ hsends

theorem recvGroup1_sends (hfits : s.FramesFit) (hek : (EapolKey.replay ek).length = 8)
    (h : group1Verdict s ek = .taken) :
    control.Does (recvGroup1 ek) s fun ks _ => Sends .group2 s.answering ks := by
  obtain ⟨idx, gtk, htaken⟩ := recvGroup1_taken h
  rw [does_congr htaken]
  unfold takeKeyData Handler.call
  rw [does_update_bind, does_emit_bind]
  exact does_mono (sendGroup2_sends ⟨hek, hfits.2⟩) fun ks _ hsends => .skip _ hsends

end Packets

/-- The event is a packet of the group handshake that passes every check. -/
def Daemon.rekeys (s : Daemon) : EventKind → Bool
  | .frame sender data => s.eapolstate = .negotiated && s.verdict sender data = .taken
  | _ => false

/-- What a step sends, by whether it takes a packet of the group handshake. -/
def Answers (s : Daemon) (k : EventKind) (ks : List Act) : Prop :=
  if s.rekeys k then Sends .group2 s.answering ks else Orderly s.answering ks

theorem handleRawsock_sends {s : Daemon} (hfits : s.FramesFit) (sender data : Bytes) :
    control.Does (handleRawsock sender data) s fun ks _ => Answers s (.frame sender data) ks := by
  by_cases htaken : s.verdict sender data = .taken
  · have hverdict := htaken
    unfold Daemon.verdict at hverdict
    dsimp only at hverdict
    split at hverdict
    swap
    · cases hverdict
    next hears =>
    have hek := Daemon.hears_replay hears
    rw [does_congr (handleRawsock_heard hears)]
    unfold dispatchEapol Answers Daemon.rekeys
    rw [does_read_bind]
    cases hstate : s.eapolstate with
    | idle =>
        rw [hstate] at hverdict
        cases hverdict
    | waiting24 =>
        rw [hstate] at hverdict
        cases hverdict
    | waiting14 =>
        rw [hstate] at hverdict
        exact recvPacket1_sends hfits hek hverdict
    | waiting34 =>
        rw [hstate] at hverdict
        exact does_mono (recvPacket3_sends hfits hek hverdict) fun ks _ h => .inr ⟨.packet4, by decide, h⟩
    | negotiated =>
        rw [hstate] at hverdict
        refine does_mono (recvGroup1_sends hfits hek hverdict) fun ks _ h => ?_
        rw [if_pos (by simp [htaken])]
        exact h
  · refine does_mono (handleRawsock_does sender data s) fun ks o h => ?_
    unfold Answers Daemon.rekeys
    rw [if_neg (by simp [htaken])]
    cases h with
    | ignored _ => exact .inl (by simp [Silent])
    | aborts _ h => exact .inl h.leaves.radio.silent
    | packet1_ends _ hv _ _ _ => exact absurd hv htaken
    | packet1_early _ _ _ hv _ _ _ _ => exact absurd hv htaken
    | packet1 _ _ _ hv _ _ _ _ _ => exact absurd hv htaken
    | packet3 _ hv _ _ _ _ => exact absurd hv htaken
    | group1 _ hv _ _ _ _ => exact absurd hv htaken

theorem cmdAssociate_sends {s : Daemon} (hfits : s.FramesFit) :
    control.Does Netlink.cmdAssociate s fun ks _ => Orderly s.answering ks := by
  by_cases hwaits : s.authstate = .associating ∧ s.eapolstate ≠ .waiting14
  · obtain ⟨ha, hs⟩ := hwaits
    unfold Netlink.cmdAssociate
    rw [does_read_bind, if_neg (by rw [ha]; decide), if_neg (not_not.mpr ha)]
    have hallow : control.Does allowEapolSends s fun ks _ => Sends .packet2 s.answering ks := by
      unfold allowEapolSends
      rw [does_read_bind, if_neg hs]
      exact sendPacket2_sends hfits
    refine does_bind hallow ?_ fun ks h => .inr ⟨.packet2, by decide, h⟩
    intro ks _ c h s' _
    exact does_of_forall fun ks' o => .inr ⟨.packet2, by decide, h.append ks'⟩
  · refine does_mono (Netlink.cmdAssociate_does s) fun ks o h => .inl ?_
    cases h with
    | external _ => simp [Silent]
    | snaps _ _ => simp [Silent, Netlink.takeover, Act.packet]
    | allows _ _ => simp [Silent]
    | sends _ _ ha hs _ => exact absurd ⟨ha, hs⟩ hwaits
    | overwrites _ _ _ ha hs _ => exact absurd ⟨ha, hs⟩ hwaits

/-- Of the netlink messages only `ASSOCIATE` may have a packet sent. -/
theorem netlink_sends {s : Daemon} (hfits : s.FramesFit) (msg : Netlink.Msg) :
    control.Does (Netlink.handleMsg msg) s fun ks _ => Orderly s.answering ks := by
  have hsilent {ks : List Act} (h : Radio ks) : Orderly s.answering ks := .inl h.silent
  have hstays {ks : List Act} {o : Outcome Unit Control} (h : Stays s.toControl ks o) :
      Orderly s.answering ks := hsilent h.leaves.radio
  unfold Netlink.handleMsg
  rw [does_read_bind]
  cases msg with
  | done => exact does_mono (Netlink.genlDone_does s) fun ks o h => hsilent (Netlink.GenlDone.leaves h).radio
  | err seq err =>
      exact does_mono (Netlink.genlError_does seq err s) fun ks o h => hsilent (Netlink.GenlError.leaves h).radio
  | other => exact .inl (by simp [Silent])
  | gen msg =>
      dsimp only
      split
      swap
      · exact .inl (by simp [Silent])
      by_cases hcmd : msg.cmd = .associate
      · unfold Netlink.dispatch
        rw [hcmd]
        exact cmdAssociate_sends hfits
      · refine does_mono (Netlink.dispatch_does msg s) fun ks o h => ?_
        unfold Netlink.GenEffect at h
        cases hcode : msg.cmd <;> simp only [hcode] at h
        case associate => exact absurd hcode hcmd
        case triggerScan => exact hstays h
        case other => exact hstays h
        case newScanResults =>
          cases h with
          | stays => exact hsilent .nil
          | dumps seq _ => exact hsilent .nil
        case scanAborted =>
          cases h with
          | stays _ => exact hsilent .nil
          | aborts _ => exact hsilent .nil
        case authenticate =>
          cases h with
          | external _ => exact hsilent .nil
          | snaps _ _ => exact .inl (by simp [Silent, Netlink.takeover, Act.packet])
          | associates bssid freq ssid ies sent _ => exact .inl (by simp [Silent, Act.packet])
        case connect =>
          cases h with
          | external _ => exact hsilent .nil
          | overwrites _ _ => exact .inl (by simp [Silent, Netlink.takeover, Act.packet])
          | connects _ => exact hsilent .nil
        case disconnect =>
          cases h with
          | idle _ => exact hsilent .nil
          | disconnects _ h =>
              refine .inl fun a ha => ?_
              rcases List.mem_cons.mp ha with rfl | ha
              · rfl
              · exact h.leaves.radio.silent a ha

theorem EventKind.sends {s : Daemon} (hfits : s.FramesFit) (k : EventKind) :
    control.Does k.handler s fun ks _ => Answers s k ks := by
  have hleaves (k : EventKind) (hk : s.rekeys k = false)
      (h : ∀ ks o, k.effect s ks o → Leaves s.toControl ks o) :
      control.Does k.handler s fun ks _ => Answers s k ks := by
    refine does_mono (k.handler_does s) fun ks o heff => ?_
    unfold Answers
    rw [if_neg (by rw [hk]; decide)]
    exact .inl (h ks o heff).radio.silent
  cases k with
  | frame sender data => exact handleRawsock_sends hfits sender data
  | netlink msg => exact netlink_sends hfits msg
  | connMsg cn msg => exact hleaves _ rfl fun ks o h => Cntrl.CmdEffect.leaves h
  | rfkill re => exact hleaves _ rfl fun ks o h => RfkillEffect.leaves h
  | timer => exact hleaves _ rfl fun ks o h => TimerExpired.leaves h
  | sigterm => exact hleaves _ rfl fun ks o h => Xshutdown.leaves h
  | netlinkLost | controlLost | pollError =>
      refine hleaves _ rfl fun ks o h => ?_
      obtain ⟨rfl, hq⟩ := h
      exact hq.radio
  | turn =>
      refine hleaves _ rfl fun ks o h => ?_
      obtain ⟨rfl, rfl⟩ := h
      split
      · exact .nil
      · exact ⟨.nil, .refl _⟩
  | connEnd | connHup | frameError | rawsockLost | accept | rfkillLost | reap =>
      exact hleaves _ rfl fun ks o h => Stays.leaves h

/-- A step's packet is in order unless it answers a packet of the group handshake. -/
theorem System.step_packets {x : System} {e : Event} (hfits : (x.before e).FramesFit) :
    answerMonitor.Accepts (x.before e).answering (x.step e).2 ↔ (x.before e).rekeys e.kind = false := by
  rw [← (System.control_run answerMonitor_hidden _ _).2]
  have hsends : Answers (x.before e) e.kind (control.outputs (x.step e).2) :=
    System.step_does (e.kind.sends hfits)
  have hone := (System.step_session x e).packets
  unfold Answers at hsends
  cases hrekeys : (x.before e).rekeys e.kind with
  | true =>
      rw [if_pos hrekeys] at hsends
      simp [hsends.rejects]
  | false =>
      rw [if_neg (by rw [hrekeys]; decide)] at hsends
      obtain hsilent | ⟨reply, hreply, hsends⟩ := hsends
      · simp [hsilent.accepts]
      · simp [hsends.accepts hreply hone]

/-- Over any run, all packets sent are in order exactly if no packet of the group
handshake is taken. So the two builders of the pairwise handshake are always right, and
the third one never is. -/
theorem packets_wellFormed_iff {x : System} {es : List Event} (hv : supplicant.Valid x es)
    (hfits : supplicant.Every (fun y _ => y.FramesFit) x es) :
    answerMonitor.Accepts x.answering (supplicant.outputs x es) ↔
      supplicant.Every (fun y e => (y.before e).rekeys e.kind = false) x es := by
  induction es generalizing x with
  | nil => exact ⟨fun _ => trivial, fun _ => trivial⟩
  | cons e es ih =>
      have hstep : answerMonitor.Accepts x.answering (x.step e).2 ↔ (x.before e).rekeys e.kind = false :=
        System.step_packets hfits.1
      have hrest : answerMonitor.Accepts (answerMonitor.run x.answering (x.step e).2)
            (supplicant.outputs (x.step e).1 es) ↔
          supplicant.Every (fun y e => (y.before e).rekeys e.kind = false) (x.step e).1 es := by
        cases es with
        | nil => exact ⟨fun _ => trivial, fun _ => trivial⟩
        | cons e' es =>
            have hrun : (x.step e).1.halted = false := hv.2.1.1
            have hsession := System.step_session x e
            rw [System.outcome_running hrun] at hsession
            have hsync : answerMonitor.run x.answering (x.step e).2 = (x.step e).1.answering := by
              rw [← (System.control_run answerMonitor_hidden _ _).1]
              exact hsession.answering
            rw [hsync]
            exact ih hv.2 hfits.2
      change answerMonitor.Accepts _ ((x.step e).2 ++ supplicant.outputs (x.step e).1 es) ↔ _
      rw [Monitor.accepts_append, hstep, hrest]
      exact Iff.rfl

namespace Sample

/-- A handshake up to the answer to packet 1/4. -/
def halfway : List Event :=
  joining ++ [notice .authenticate, notice .associate, packet1 5]

def negotiated : System where
  eapolstate := .negotiated
  replay := Bytes.zeros 8
  KCK := Bytes.zeros 16
  KEK := Bytes.zeros 16
  ap := { bssid := bssid }
  rawsock := true
  turn := { rawsock := true }

/-- A GTK of nines behind the first block of the key wrap. -/
def keyData : Bytes := unwrapIv ++ [0xDD, 22, 0x00, 0x0F, 0xAC, 0x01, 1, 0] ++ List.replicate 16 9

def group1 : Bytes :=
  signPacket (Bytes.zeros 16) 1 127 (KI_SHA + KI_SECURE + KI_ENCRYPTED + KI_ACK + KI_MIC) 16
    (Bytes.zeros 7 ++ [1]) (Bytes.zeros 32) (Aes128.wrap (Bytes.zeros 16) keyData)

def rekeying : List Event := [event (.frame bssid group1)]

theorem length_wrap_keyData : (Aes128.wrap (Bytes.zeros 16) keyData).length = 32 :=
  Aes128.Wrappable.length_wrap ⟨by decide, by decide⟩

theorem group1_reads : Reads 127 (KI_SHA + KI_SECURE + KI_ENCRYPTED + KI_ACK + KI_MIC) (Bytes.zeros 7 ++ [1])
    (Aes128.wrap (Bytes.zeros 16) keyData) group1 :=
  buildPacket_reads rfl rfl (length_makeMic _ _) (by decide) (by decide) (by rw [length_wrap_keyData]; decide)

theorem negotiated_hears (sender data : Bytes) : negotiated.Enabled (event (.frame sender data)) :=
  ⟨rfl, Nat.zero_le _, rfl⟩

theorem group1_taken : negotiated.rekeys (.frame bssid group1) = true := by
  have hreads := group1_reads
  have hlen : group1.length = 131 := by rw [hreads.length, length_wrap_keyData]; rfl
  have htake : group1.take 1024 = group1 := List.take_of_length_le (by omega)
  have hears : negotiated.hears bssid group1 = true := by
    simp only [Daemon.hears, hlen, hreads.paclen, hreads.paylen, hreads.pactype, length_wrap_keyData]
    decide
  have hbits : ptype group1 (KI_SECURE + KI_ENCRYPTED + KI_ACK + KI_MIC) = true := by
    simp only [ptype, hreads.keyinfo]
    decide
  have hauth : authentic negotiated.toDaemon group1 = true := by
    have hmic : checkMic EapolKey.micOffset (Bytes.zeros 16) group1 = 0 := checkMic_signPacket rfl rfl
    simp only [authentic, hreads.replay, negotiated, hmic]
    decide
  have hgtk : holdsGtk negotiated.toDaemon group1 = true := by
    have hunwrap : unwrapKey (Bytes.zeros 16) (Aes128.wrap (Bytes.zeros 16) keyData) = (0, keyData) :=
      unwrapKey_wrap ⟨by decide, by decide⟩ (by decide)
    simp only [holdsGtk, hreads.payload, negotiated, hunwrap]
    decide
  have hverdict : negotiated.verdict bssid group1 = .taken := by
    rw [Daemon.verdict, htake, if_pos hears]
    change group1Verdict _ _ = _
    rw [group1Verdict, if_pos (by rw [hbits, hauth]; rfl), if_pos hgtk]
  simp only [Daemon.rekeys, hverdict]
  decide

end Sample

theorem halfway_packets : answerMonitor.Accepts Sample.start.answering
      (supplicant.outputs Sample.start Sample.halfway) ↔
    supplicant.Every (fun y e => (y.before e).rekeys e.kind = false) Sample.start Sample.halfway :=
  packets_wellFormed_iff (by decide +kernel) (by decide +kernel)

theorem System.rekey_malformed {x : System} {e : Event} (hfits : x.FramesFit)
    (h : (x.before e).rekeys e.kind = true) :
    ¬ answerMonitor.Accepts x.answering (supplicant.outputs x [e]) := by
  intro haccepts
  have hstep := ((Monitor.accepts_append ..).mp haccepts).1
  rw [(System.step_packets hfits).mp hstep] at h
  cases h

/-- A packet of the group handshake is taken and answered. The answer has the length of
the key in its header where that of the packet belongs, and no key type. -/
theorem group2_not_wellFormed : supplicant.Valid Sample.negotiated Sample.rekeying ∧
    supplicant.Every (fun y _ => y.FramesFit) Sample.negotiated Sample.rekeying ∧
    ¬ answerMonitor.Accepts Sample.negotiated.answering
      (supplicant.outputs Sample.negotiated Sample.rekeying) := by
  have hfits : Sample.negotiated.FramesFit := by decide
  refine ⟨⟨Sample.negotiated_hears _ _, trivial⟩, ⟨hfits, trivial⟩, ?_⟩
  exact System.rekey_malformed hfits Sample.group1_taken

end Wsupp
