import Wsupp.Control.Connection
import Wsupp.Eapol

/-!
# The control variables under the key negotiation

A packet is ignored, aborts the connection or is taken; the verdict is a pure
function of the packet and of the keys it is checked with. What a packet that is
taken leads to depends on whether the reply goes out. For each of the packets 1/4,
3/4 and 1/2 there is one relation, and `Frame` puts them together.

The keys themselves are derived as the source does it and appear in the relations as
terms. A connection that comes up, with the DHCP client and the PSK that is saved,
ends the process where saving it would write outside the block; this is a case of
its own.
-/
namespace Wsupp
open Reactive Prog View

def Control.handleConnect (c : Control) : Control := { c with
  timerset := true
  opermode := if c.opermode = .rescan ∨ c.opermode = .oneshot then .active else c.opermode }

inductive HandleConnect (c : Control) : List Act → Outcome Unit Control → Prop where
  | connects (pid bssid ssid freq conns) : HandleConnect c
      [.call (.handleConnect c.authstate), .startDhcp pid, .report (.connected bssid ssid freq) conns]
      (.goes () c.handleConnect)
  | ends : HandleConnect c [.call (.handleConnect c.authstate)] .ends

theorem savePsk_does (ssid : Bytes) (s : Daemon) :
    control.Does (savePsk ssid) s fun ks o => ks = [] ∧ (o = .goes () s.toControl ∨ o = .ends) := by
  refine does_bind_quiet (quiet_answer ..) fun io s₁ h₁ => ?_
  refine does_bind_quiet (quiet_answer ..) fun rio s₂ h₂ => ?_
  rw [does_read_bind]
  split
  · exact ⟨rfl, .inl (congrArg (Outcome.goes ()) (h₂.trans h₁))⟩
  · exact ⟨rfl, .inr rfl⟩

theorem saveUnsavedPsk_does (sc : Option ℕ) (s : Daemon) :
    control.Does (saveUnsavedPsk sc) s fun ks o =>
      ks = [] ∧ (o = .goes () s.toControl ∨ o = .ends) := by
  unfold saveUnsavedPsk
  rw [does_read_bind]
  split
  · refine does_bind (savePsk_does _ s) ?_ ?_
    · rintro ks _ c ⟨rfl, ho⟩ s' hc
      obtain rfl : c = s.toControl := by simpa using ho
      exact does_quiet (quiet_flagSlot ..) ⟨rfl, .inl (congrArg (Outcome.goes ()) hc)⟩
    · exact fun ks h => ⟨h.1, .inr rfl⟩
  · exact ⟨rfl, .inl rfl⟩

theorem triggerDhcp_does (s : Daemon) :
    control.Does triggerDhcp s fun ks o =>
      (∃ pid, ks = [.startDhcp pid] ∧ o = .goes () s.toControl) ∨ (ks = [] ∧ o = .ends) := by
  refine does_bind_quiet quiet_killDhcp fun _ s₁ h₁ => ?_
  refine does_bind_quiet (quiet_answer ..) fun pid s₂ h₂ => ?_
  have hc : control.state s₂ = s.toControl := h₂.trans h₁
  split
  · unfold fail
    refine does_bind_quiet (quiet_warn _) fun _ s₃ _ => ?_
    exact .inr ⟨rfl, rfl⟩
  · rw [does_emit_bind, does_update]
    exact .inl ⟨pid, rfl, congrArg (Outcome.goes ()) hc⟩

theorem handleConnect_does (s : Daemon) :
    control.Does handleConnect s (HandleConnect s.toControl) := by
  unfold handleConnect Handler.call setTimer
  rw [does_read_bind, does_emit_bind, does_update_bind, does_update_bind, does_update_bind,
    does_read_bind]
  refine does_bind_quiet (quiet_flagSlot ..) fun _ s₁ h₁ => ?_
  have h₁ : s₁.toControl = s.toControl.handleConnect := h₁
  refine does_bind (saveUnsavedPsk_does _ s₁) ?_ ?_
  · rintro ks _ c ⟨rfl, ho⟩ s₂ h₂
    obtain rfl : c = s₁.toControl := by simpa using ho
    rw [does_update_bind]
    refine does_bind (triggerDhcp_does _) ?_ ?_
    · rintro ks _ c (⟨pid, rfl, ⟨⟩⟩ | ⟨-, ⟨⟩⟩) s₃ h₃
      have h₃ : s₃.toControl = s.toControl.handleConnect := h₃.trans (h₂.trans h₁)
      unfold reportConnected sendReport
      rw [does_read_bind, does_read_bind, does_emit, control_state, h₃]
      exact .connects ..
    · rintro ks (⟨-, -, ⟨⟩⟩ | ⟨rfl, -⟩)
      exact .ends
  · rintro ks ⟨rfl, -⟩
    exact .ends

/-- Whether the next packet goes out whole. -/
def Daemon.sends (s : Daemon) (len : ℕ) : Bool := s.env.rawSend.headD len = len

/-- Whether `fill_rand` comes back. -/
def Daemon.random (s : Daemon) : Bool :=
  match s.env.urandom.headD (some (Bytes.zeros 32)) with
  | none => false
  | some rand => 32 ≤ rand.length

/-- A reply that goes out and what is done after it, or an abort. The socket takes the
frame or refuses it, as the event says. -/
inductive Replies (c : Control) (ok : Bool) (after : List Act → Outcome Unit Control → Prop) :
    List Act → Outcome Unit Control → Prop where
  | sent (dest frame) {ks o} : ok = true → after ks o → Replies c ok after (.eapol dest frame true :: ks) o
  | fails (dest frame) {ks o} : ok = false → Abort c ks o →
      Replies c ok after (.eapol dest frame false :: ks) o

theorem sendPacket_does (buf : Bytes) (len : ℕ) (s : Daemon) {f : Handler Unit}
    {after : List Act → Outcome Unit Control → Prop}
    (hf : ∀ s', s'.toControl = s.toControl → control.Does f s' after) :
    control.Does (do
      let sent ← sendPacket buf len
      if sent then f else pure () : Handler Unit) s (Replies s.toControl (s.sends len) after) := by
  have hsend : control.Does (sendPacket buf len) s fun ks o =>
      (∃ dest, s.sends len = true ∧ ks = [.eapol dest buf true] ∧ o = .goes true s.toControl) ∨
      (∃ dest ks', s.sends len = false ∧ ks = .eapol dest buf false :: ks' ∧
        ((∃ c, o = .goes false c ∧ Abort s.toControl ks' (.goes () c)) ∨
          (o = .ends ∧ Abort s.toControl ks' .ends))) := by
    unfold sendPacket Handler.answerRawSend
    rw [does_read_bind, does_answer_bind, does_emit_bind]
    change control.Does (if s.env.rawSend.headD (len : Int) = len then _ else _) _ fun ks o =>
      _ ∨ _
    by_cases hwr : s.env.rawSend.headD (len : Int) = len
    · have hok : s.sends len = true := decide_eq_true hwr
      rw [if_pos hwr, does_pure]
      exact .inl ⟨s.amac, hok, by rw [← hok]; rfl, rfl⟩
    · have hno : s.sends len = false := decide_eq_false hwr
      rw [if_neg hwr]
      refine does_bind_quiet (quiet_warn _) fun _ s₁ h₁ => ?_
      have h₁ : s₁.toControl = s.toControl := h₁
      refine does_bind (abortConnection_does s₁) ?_ ?_
      · intro ks _ c habort s₂ h₂
        rw [h₁] at habort
        rw [does_pure, h₂]
        refine .inr ⟨s.amac, ks, hno, ?_, .inl ⟨c, rfl, habort⟩⟩
        rw [List.append_nil, ← hno]
        rfl
      · intro ks habort
        rw [h₁] at habort
        refine .inr ⟨s.amac, ks, hno, ?_, .inr ⟨rfl, habort⟩⟩
        rw [← hno]
        rfl
  refine does_bind hsend ?_ ?_
  · rintro ks sent c (⟨dest, hok, rfl, ⟨⟩⟩ | ⟨dest, ks', hno, rfl, ⟨_, ⟨⟩, habort⟩ | ⟨⟨⟩, -⟩⟩) s' hc
    · rw [if_pos rfl]
      refine does_mono (hf s' hc) fun ks o h => ?_
      exact .sent dest buf hok h
    · rw [if_neg (by decide), does_pure, hc, List.append_nil]
      exact .fails dest buf hno habort
  · rintro ks (⟨-, -, -, ⟨⟩⟩ | ⟨dest, ks', hno, rfl, ⟨_, ⟨⟩, -⟩ | ⟨-, habort⟩⟩)
    exact .fails dest buf hno habort

def AfterPacket2 (c : Control) (ks : List Act) (o : Outcome Unit Control) : Prop :=
  ks = [] ∧ o = .goes () { c with eapolstate := .waiting34 }

inductive AfterPacket4 (c : Control) : List Act → Outcome Unit Control → Prop where
  | connects {ks o} : HandleConnect { c with eapolstate := .negotiated } ks o →
      AfterPacket4 c (.call (.uploadPtk c.authstate) :: .call (.uploadGtk c.authstate c.replay) :: ks) o

def AfterGroup2 (c : Control) (ks : List Act) (o : Outcome Unit Control) : Prop :=
  ks = [.call (.uploadGtk c.authstate c.replay)] ∧ o = .goes () c

theorem uploadPtk_does (s : Daemon) :
    control.Does uploadPtk s fun ks o =>
      ks = [.call (.uploadPtk s.authstate)] ∧ o = .goes () s.toControl := by
  unfold uploadPtk Handler.call
  rw [does_read_bind, does_emit_bind]
  refine does_mono (sendCheck_does _ s) ?_
  rintro ks o ⟨sent, rfl, rfl⟩
  exact ⟨rfl, rfl⟩

theorem uploadGtk_does (s : Daemon) :
    control.Does uploadGtk s fun ks o =>
      ks = [.call (.uploadGtk s.authstate s.replay)] ∧ o = .goes () s.toControl := by
  unfold uploadGtk Handler.call
  rw [does_read_bind, does_emit_bind]
  refine does_mono (sendCheck_does _ s) ?_
  rintro ks o ⟨sent, rfl, rfl⟩
  exact ⟨rfl, rfl⟩

theorem sendPacket2_does (s : Daemon) :
    control.Does sendPacket2 s (Replies s.toControl (s.sends (EapolKey.size + s.ap.ies.length))
      (AfterPacket2 s.toControl)) := by
  unfold sendPacket2
  rw [does_read_bind]
  refine sendPacket_does _ _ s fun s' hc => ?_
  exact ⟨rfl, congrArg (fun c : Control => Outcome.goes () { c with eapolstate := .waiting34 }) hc⟩

theorem sendPacket4_does (s : Daemon) :
    control.Does sendPacket4 s (Replies s.toControl (s.sends EapolKey.size)
      (AfterPacket4 s.toControl)) := by
  unfold sendPacket4
  rw [does_read_bind]
  refine sendPacket_does _ _ s fun s₁ h₁ => ?_
  rw [does_update_bind]
  refine does_bind (uploadPtk_does _) ?_ ?_
  · rintro ks _ c ⟨rfl, ⟨⟩⟩ s₂ h₂
    refine does_bind (uploadGtk_does s₂) ?_ ?_
    · rintro ks _ c ⟨rfl, ⟨⟩⟩ s₃ h₃
      refine does_bind_quiet (quiet_update fun _ => rfl) fun _ s₄ h₄ => ?_
      refine does_mono (handleConnect_does s₄) fun ks o h => ?_
      have h₂ : s₂.toControl = { s.toControl with eapolstate := .negotiated } :=
        h₁ ▸ h₂
      rw [show s₄.toControl = { s.toControl with eapolstate := .negotiated } from
        h₄.trans (h₃.trans h₂)] at h
      rw [h₂]
      have hstate : s₁.authstate = s.authstate := congrArg Control.authstate h₁
      have := AfterPacket4.connects h
      simpa [hstate] using this
    · rintro ks ⟨-, ⟨⟩⟩
  · rintro ks ⟨-, ⟨⟩⟩

theorem sendGroup2_does (s : Daemon) :
    control.Does sendGroup2 s (Replies s.toControl (s.sends EapolKey.size)
      (AfterGroup2 s.toControl)) := by
  unfold sendGroup2
  rw [does_read_bind]
  refine sendPacket_does _ _ s fun s' hc => ?_
  refine does_mono (uploadGtk_does s') fun ks o h => ?_
  rw [hc] at h
  exact h

inductive Verdict where
  | ignored | aborts | taken
deriving DecidableEq

/-- The packet is in order and not older than the last one, and its MIC is right. -/
def authentic (s : Daemon) (ek : Bytes) : Bool :=
  Bytes.memcmp s.replay (EapolKey.replay ek) < 0 && checkMic EapolKey.micOffset s.KCK ek = 0

/-- The key data can be unwrapped and holds a GTK. -/
def holdsGtk (s : Daemon) (ek : Bytes) : Bool :=
  (unwrapKey s.KEK (EapolKey.payload ek)).1 = 0 &&
    (fetchGtk s.ap.tkipgroup s.GTK ((unwrapKey s.KEK (EapolKey.payload ek)).2.drop 8)).isSome

def packet1Verdict (ek : Bytes) : Verdict :=
  if EapolKey.type ek ≠ EAPOL_KEY_RSN then .aborts
  else if ptype ek (KI_PAIRWISE + KI_ACK) then .taken else .ignored

def packet3Verdict (s : Daemon) (ek : Bytes) : Verdict :=
  if ptype ek (KI_PAIRWISE + KI_ACK + KI_MIC + KI_ENCRYPTED + KI_SECURE) &&
    s.anonce = EapolKey.nonce ek && authentic s ek && holdsGtk s ek then .taken else .aborts

def group1Verdict (s : Daemon) (ek : Bytes) : Verdict :=
  if EapolKey.type ek = EAPOL_KEY_RSN && ptype ek (KI_SECURE + KI_ENCRYPTED + KI_ACK + KI_MIC) &&
    authentic s ek then if holdsGtk s ek then .taken else .aborts
  else .ignored

/-- The checks of `handle_rawsock`. -/
def Daemon.hears (s : Daemon) (sender ek : Bytes) : Bool :=
  s.ap.bssid = sender.take 6 && EapolKey.size ≤ ek.length && EapolKey.paclen ek + 4 = ek.length &&
    EapolKey.size + EapolKey.paylen ek ≤ ek.length && EapolKey.pactype ek = EAPOL_KEY

def Daemon.verdict (s : Daemon) (sender data : Bytes) : Verdict :=
  let ek := data.take 1024
  if s.hears sender ek then
    match s.eapolstate with
    | .waiting14 => packet1Verdict ek
    | .waiting34 => packet3Verdict s ek
    | .negotiated => group1Verdict s ek
    | .idle | .waiting24 => .ignored
  else .ignored

/-- `Control` with the keys of packet 1/4. -/
def Control.keyed (c : Control) (replay kck kek : Bytes) : Control :=
  { c with replay := replay, KCK := kck, KEK := kek }

/-- The reply packet has room on the wire: what `send_packet` is given to send. -/
def Daemon.replies (s : Daemon) : Bool :=
  s.sends (if s.eapolstate = .waiting14 then EapolKey.size + s.ap.ies.length else EapolKey.size)

/-- What a packet leads to: it is ignored, aborts the connection, or is one of the
packets 1/4, 3/4 and 1/2 that has passed the checks of the state it comes in. -/
inductive Frame (s : Daemon) (sender data : Bytes) : List Act → Outcome Unit Control → Prop where
  | ignored : s.verdict sender data = .ignored → Frame s sender data [] (.goes () s.toControl)
  | aborts {ks o} : s.verdict sender data = .aborts → Abort s.toControl ks o →
      Frame s sender data ks o
  | packet1_ends {ks} (r : Bytes) : s.verdict sender data = .taken → s.eapolstate = .waiting14 →
      s.random = false → Quits s.toControl ks → Frame s sender data (.call (.takePacket1 r) :: ks) .ends
  | packet1_early (r kck kek : Bytes) : s.verdict sender data = .taken →
      s.eapolstate = .waiting14 → s.random = true → r.length = 8 → s.eapolsends = false →
      Frame s sender data [.call (.takePacket1 r), .call (.pmkToPtk kck kek)]
        (.goes () { s.toControl.keyed r kck kek with eapolstate := .waiting24 })
  | packet1 (r kck kek : Bytes) {ks o} : s.verdict sender data = .taken →
      s.eapolstate = .waiting14 → s.random = true → r.length = 8 → s.eapolsends = true →
      Replies (s.toControl.keyed r kck kek) s.replies (AfterPacket2 (s.toControl.keyed r kck kek)) ks o →
      Frame s sender data (.call (.takePacket1 r) :: .call (.pmkToPtk kck kek) :: ks) o
  | packet3 (r : Bytes) {ks o} : s.verdict sender data = .taken → s.eapolstate = .waiting34 →
      r.length = 8 → Bytes.memcmp s.replay r < 0 →
      Replies { s.toControl with replay := r } s.replies (AfterPacket4 { s.toControl with replay := r })
        ks o →
      Frame s sender data (.call (.takePacket3 s.KCK s.KEK r) :: ks) o
  | group1 (r : Bytes) {ks o} : s.verdict sender data = .taken → s.eapolstate = .negotiated →
      r.length = 8 → Bytes.memcmp s.replay r < 0 →
      Replies { s.toControl with replay := r } s.replies (AfterGroup2 { s.toControl with replay := r })
        ks o →
      Frame s sender data (.call (.takeGroup1 s.KCK s.KEK r) :: ks) o

theorem xabort_does (why : String) (s : Daemon) :
    control.Does (xabort why) s (Abort s.toControl) := by
  refine does_bind_quiet (quiet_warn _) fun _ s' hc => ?_
  rw [← show s'.toControl = s.toControl from hc]
  exact abortConnection_does s'

theorem EapolKey.replay_length {ek : Bytes} (h : EapolKey.size ≤ ek.length) :
    (EapolKey.replay ek).length = 8 := by
  simp only [EapolKey.size] at h
  simp only [EapolKey.replay, Bytes.slice, List.length_take, List.length_drop]
  omega

theorem ptype_unique {ek : Bytes} {bits bits' : ℕ} (h : ptype ek bits = true)
    (h' : ptype ek bits' = true) : bits = bits' := by
  simp only [ptype, Bool.and_eq_true, decide_eq_true_eq] at h h'
  rw [← h.2, ← h'.2]

theorem recvPacket3_aborts {ek : Bytes} {s : Daemon} (h : packet3Verdict s ek = .aborts) :
    control.Does (recvPacket3 ek) s (Abort s.toControl) := by
  unfold recvPacket3
  rw [does_read_bind]
  split
  · exact xabort_does _ s
  split
  · exact xabort_does _ s
  next hbits =>
  split
  · exact xabort_does _ s
  next hnonce =>
  split
  · exact xabort_does _ s
  next hreplay =>
  split
  · exact xabort_does _ s
  next hmic =>
  split
  · exact xabort_does _ s
  next hunwrap =>
  split
  · exact xabort_does _ s
  next hgtk =>
  -- all checks have passed, so the verdict was another one
  simp_all [packet3Verdict, authentic, holdsGtk]

theorem packet3_newer {ek : Bytes} {s : Daemon} (h : packet3Verdict s ek = .taken) :
    Bytes.memcmp s.replay (EapolKey.replay ek) < 0 := by
  unfold packet3Verdict at h
  split at h
  · next hok =>
      simp only [authentic, Bool.and_eq_true, decide_eq_true_eq] at hok
      exact hok.1.2.1
  · cases h

/-- Packets 3/4 and 1/2 that are taken leave their key data and counter behind. -/
theorem takeKeyData_does (ek : Bytes) (idx : UInt8) (gtk : Bytes) (s : Daemon) {f : Handler Unit}
    {E : List Act → Outcome Unit Control → Prop}
    (hf : ∀ s', s'.toControl = { s.toControl with replay := EapolKey.replay ek } →
      s'.env = s.env → control.Does f s' E) :
    control.Does (do
      takeKeyData ek idx gtk
      f : Handler Unit) s E := by
  unfold takeKeyData
  rw [does_update_bind]
  exact hf _ rfl rfl

theorem recvPacket3_taken {ek : Bytes} {s : Daemon} (h : packet3Verdict s ek = .taken) :
    ∃ idx gtk, recvPacket3 ek s = (do
      takeKeyData ek idx gtk
      Handler.call (.takePacket3 s.KCK s.KEK (EapolKey.replay ek))
      sendPacket4 : Handler Unit) s := by
  unfold packet3Verdict at h
  split at h
  · next hok =>
      simp only [authentic, holdsGtk, Bool.and_eq_true, decide_eq_true_eq,
        Option.isSome_iff_exists] at hok
      obtain ⟨⟨⟨hbits, hnonce⟩, hreplay, hmic⟩, hunwrap, ⟨idx, gtk⟩, hgtk⟩ := hok
      have hresend : ¬ ptype ek (KI_PAIRWISE + KI_ACK) = true := fun h =>
        absurd (ptype_unique h hbits) (by decide)
      unfold recvPacket3
      rw [read_bind, if_neg hresend, hbits, if_neg (by decide), if_neg (not_not.mpr hnonce),
        if_neg (not_le.mpr hreplay), if_neg (not_not.mpr hmic), if_neg (not_not.mpr hunwrap), hgtk]
      exact ⟨idx, gtk, rfl⟩
  · cases h

theorem recvPacket3_takes {ek : Bytes} {s : Daemon} (h : packet3Verdict s ek = .taken) :
    control.Does (recvPacket3 ek) s fun ks o =>
      ∃ ks', ks = .call (.takePacket3 s.KCK s.KEK (EapolKey.replay ek)) :: ks' ∧
        Replies { s.toControl with replay := EapolKey.replay ek } (s.sends EapolKey.size)
          (AfterPacket4 { s.toControl with replay := EapolKey.replay ek }) ks' o := by
  obtain ⟨idx, gtk, htaken⟩ := recvPacket3_taken h
  rw [does_congr htaken]
  refine takeKeyData_does ek idx gtk s fun s' hc henv => ?_
  unfold Handler.call
  rw [does_emit_bind]
  refine does_mono (sendPacket4_does s') fun ks o hr => ?_
  rw [hc, show s'.sends EapolKey.size = s.sends EapolKey.size by rw [Daemon.sends, henv]; rfl] at hr
  exact ⟨ks, rfl, hr⟩

theorem ignore_does (why : String) (s : Daemon) :
    control.Does (ignore why) s fun ks o => ks = [] ∧ o = .goes () s.toControl :=
  does_quiet (quiet_warn _) ⟨rfl, rfl⟩

theorem recvGroup1_ignores {ek : Bytes} {s : Daemon} (h : group1Verdict s ek = .ignored) :
    control.Does (recvGroup1 ek) s fun ks o => ks = [] ∧ o = .goes () s.toControl := by
  unfold recvGroup1
  rw [does_read_bind]
  split
  · exact ignore_does _ s
  next htype =>
  split
  · exact ignore_does _ s
  next hbits =>
  split
  · exact ignore_does _ s
  next hreplay =>
  split
  · exact ignore_does _ s
  next hmic =>
  have hauth : authentic s ek = true := by simp_all [authentic]
  unfold group1Verdict at h
  rw [if_pos (by simp_all)] at h
  split at h <;> cases h

theorem recvGroup1_authentic {ek : Bytes} {s : Daemon} (h : group1Verdict s ek ≠ .ignored) :
    (holdsGtk s ek = true ↔ group1Verdict s ek = .taken) ∧ EapolKey.type ek = EAPOL_KEY_RSN ∧
      ptype ek (KI_SECURE + KI_ENCRYPTED + KI_ACK + KI_MIC) = true ∧
      Bytes.memcmp s.replay (EapolKey.replay ek) < 0 ∧
      checkMic EapolKey.micOffset s.KCK ek = 0 := by
  unfold group1Verdict at *
  split at h
  · next hok =>
      rw [if_pos hok]
      simp only [authentic, Bool.and_eq_true, decide_eq_true_eq] at hok
      exact ⟨by split <;> simp_all, hok.1.1, hok.1.2, hok.2.1, hok.2.2⟩
  · exact absurd rfl h

theorem recvGroup1_aborts {ek : Bytes} {s : Daemon} (h : group1Verdict s ek = .aborts) :
    control.Does (recvGroup1 ek) s (Abort s.toControl) := by
  have hne : group1Verdict s ek ≠ .ignored := by simp [h]
  obtain ⟨hgtk, htype, hbits, hreplay, hmic⟩ := recvGroup1_authentic hne
  unfold recvGroup1
  rw [does_read_bind, if_neg (not_not.mpr htype), hbits, if_neg (by decide),
    if_neg (not_le.mpr hreplay), if_neg (not_not.mpr hmic)]
  split
  · exact xabort_does _ s
  next hunwrap =>
  split
  · exact xabort_does _ s
  next hfetch =>
  rw [h] at hgtk
  exact absurd (hgtk.mp (by simp_all [holdsGtk])) (by decide)

theorem recvGroup1_taken {ek : Bytes} {s : Daemon} (h : group1Verdict s ek = .taken) :
    ∃ idx gtk, recvGroup1 ek s = (do
      takeKeyData ek idx gtk
      Handler.call (.takeGroup1 s.KCK s.KEK (EapolKey.replay ek))
      sendGroup2 : Handler Unit) s := by
  have hne : group1Verdict s ek ≠ .ignored := by simp [h]
  obtain ⟨hgtk, htype, hbits, hreplay, hmic⟩ := recvGroup1_authentic hne
  have hgtk := hgtk.mpr h
  simp only [holdsGtk, Bool.and_eq_true, decide_eq_true_eq, Option.isSome_iff_exists] at hgtk
  obtain ⟨hunwrap, ⟨idx, gtk⟩, hfetch⟩ := hgtk
  unfold recvGroup1
  rw [read_bind, if_neg (not_not.mpr htype), hbits, if_neg (by decide),
    if_neg (not_le.mpr hreplay), if_neg (not_not.mpr hmic), if_neg (not_not.mpr hunwrap), hfetch]
  exact ⟨idx, gtk, rfl⟩

theorem recvGroup1_takes {ek : Bytes} {s : Daemon} (h : group1Verdict s ek = .taken) :
    control.Does (recvGroup1 ek) s fun ks o =>
      ∃ ks', ks = .call (.takeGroup1 s.KCK s.KEK (EapolKey.replay ek)) :: ks' ∧
        Replies { s.toControl with replay := EapolKey.replay ek } (s.sends EapolKey.size)
          (AfterGroup2 { s.toControl with replay := EapolKey.replay ek }) ks' o := by
  obtain ⟨idx, gtk, htaken⟩ := recvGroup1_taken h
  rw [does_congr htaken]
  refine takeKeyData_does ek idx gtk s fun s' hc henv => ?_
  unfold Handler.call
  rw [does_emit_bind]
  refine does_mono (sendGroup2_does s') fun ks o hr => ?_
  rw [hc, show s'.sends EapolKey.size = s.sends EapolKey.size by rw [Daemon.sends, henv]; rfl] at hr
  exact ⟨ks, rfl, hr⟩

theorem fillRand_wp (s : Daemon) :
    wp fillRand
      (fun _ s' l => s.random = true ∧ control.outputs l = [] ∧ s'.toControl = s.toControl ∧
        s'.ap = s.ap ∧ s'.env.rawSend = s.env.rawSend ∧ s'.snonce.length = 32)
      (fun _ l => s.random = false ∧ Quits s.toControl (control.outputs l)) s := by
  have hquit (text : String) (s' : Daemon) (hc : s'.toControl = s.toControl) (hr : s.random = false) :
      wp (quit text : Handler Unit) (fun _ _ _ => False)
        (fun _ l => s.random = false ∧ Quits s.toControl (control.outputs l)) s' := by
    refine wp_mono (quit_does text s') (fun _ _ _ hq => ?_) (fun _ _ hq => ?_)
    · cases hq.1
    · exact ⟨hr, hc ▸ hq.2⟩
  unfold fillRand Handler.answerUrandom Handler.answer
  simp only [wp_bind, wp_read, wp_update, wp_pure, List.nil_append]
  split
  · next h =>
      refine wp_mono (hquit _ _ rfl ?_) (fun _ _ _ hq => hq.elim) (fun _ _ hq => hq)
      rw [Daemon.random, h]
  · next rand h =>
      have hlen : s.random = decide (32 ≤ rand.length) := by rw [Daemon.random, h]
      split
      · next hl =>
          refine wp_mono (hquit _ _ rfl ?_) (fun _ _ _ hq => hq.elim) (fun _ _ hq => hq)
          rw [hlen, decide_eq_false (not_le.mpr hl)]
      · next hl =>
          rw [wp_update]
          exact ⟨by rw [hlen, decide_eq_true (not_lt.mp hl)], rfl, rfl, rfl, rfl,
            List.length_take_of_le (not_lt.mp hl)⟩

theorem pmkToPtk_wp (s : Daemon) :
    wp pmkToPtk
      (fun _ s' l => ∃ kck kek, control.outputs l = [.call (.pmkToPtk kck kek)] ∧
        s'.toControl = { s.toControl with KCK := kck, KEK := kek } ∧ s'.ap = s.ap ∧ s'.env = s.env ∧
        s'.snonce = s.snonce)
      (fun _ _ => False) s := by
  unfold pmkToPtk Handler.call
  simp only [wp_bind, wp_read, wp_update, wp_emit, List.nil_append]
  exact ⟨_, _, rfl, rfl, trivial, trivial, trivial⟩

/-- Packet 1/4 up to where the reply is due: `E` is to hold if the process ends
before, `f` of the state with the keys. -/
theorem recvPacket1_keyed {ek : Bytes} {s : Daemon} (h : packet1Verdict ek = .taken)
    {E : List Act → Outcome Unit Control → Prop}
    (hends : ∀ ks, s.random = false → Quits s.toControl ks →
      E (.call (.takePacket1 (EapolKey.replay ek)) :: ks) .ends)
    (hreplies : ∀ kck kek s', s.random = true → s'.toControl = s.toControl.keyed (EapolKey.replay ek) kck kek →
      s'.ap = s.ap → s'.env.rawSend = s.env.rawSend → s'.snonce.length = 32 →
      control.Does (if s'.eapolsends then sendPacket2 else update fun s => { s with eapolstate := .waiting24 })
        s' fun ks o => E (.call (.takePacket1 (EapolKey.replay ek)) :: .call (.pmkToPtk kck kek) :: ks) o) :
    control.Does (recvPacket1 ek) s E := by
  unfold packet1Verdict at h
  split at h
  · cases h
  next htype =>
  split at h
  swap
  · cases h
  next hbits =>
  unfold recvPacket1 Handler.call
  rw [if_neg htype, hbits, if_neg (by decide), does_update_bind, does_emit_bind]
  refine does_bind_wp
    (Q := fun _ s' ks => s.random = true ∧ ks = [] ∧
      s'.toControl = { s.toControl with replay := EapolKey.replay ek } ∧ s'.ap = s.ap ∧
      s'.env.rawSend = s.env.rawSend ∧ s'.snonce.length = 32)
    (R := fun ks => s.random = false ∧ Quits { s.toControl with replay := EapolKey.replay ek } ks)
    (fillRand_wp _) ?_ ?_
  · rintro ks _ s₁ ⟨hrand, rfl, hc₁, hap, hraw, hnonce⟩
    refine does_bind_wp
      (Q := fun _ s' ks => ∃ kck kek, ks = [.call (.pmkToPtk kck kek)] ∧
        s'.toControl = { s₁.toControl with KCK := kck, KEK := kek } ∧ s'.ap = s₁.ap ∧
        s'.env = s₁.env ∧ s'.snonce = s₁.snonce)
      (R := fun _ => False) (pmkToPtk_wp s₁) ?_ (fun _ h => h.elim)
    rintro ks _ s₂ ⟨kck, kek, rfl, hc₂, hap₂, henv, hnonce₂⟩
    have hc : s₂.toControl = s.toControl.keyed (EapolKey.replay ek) kck kek := by
      rw [hc₂, hc₁]
      rfl
    rw [does_read_bind]
    exact hreplies kck kek s₂ hrand hc (hap₂.trans hap) (henv ▸ hraw) (hnonce₂ ▸ hnonce)
  · rintro ks ⟨hrand, hq⟩
    refine hends ks hrand ?_
    cases hq with
    | idle h => exact .idle h
    | disconnects sent h => exact .disconnects sent h

theorem recvPacket1_takes {ek : Bytes} {s : Daemon} (h : packet1Verdict ek = .taken) :
    control.Does (recvPacket1 ek) s fun ks o =>
      (s.random = false ∧ o = .ends ∧
        ∃ ks', ks = .call (.takePacket1 (EapolKey.replay ek)) :: ks' ∧ Quits s.toControl ks') ∨
      (s.random = true ∧ ∃ kck kek ks',
        ks = .call (.takePacket1 (EapolKey.replay ek)) :: .call (.pmkToPtk kck kek) :: ks' ∧
        (s.eapolsends = false ∧ ks' = [] ∧ o = .goes ()
            { s.toControl.keyed (EapolKey.replay ek) kck kek with eapolstate := .waiting24 } ∨
          s.eapolsends = true ∧ Replies (s.toControl.keyed (EapolKey.replay ek) kck kek)
            (s.sends (EapolKey.size + s.ap.ies.length))
            (AfterPacket2 (s.toControl.keyed (EapolKey.replay ek) kck kek)) ks' o)) := by
  refine recvPacket1_keyed h (fun ks hrand hq => .inl ⟨hrand, rfl, ks, rfl, hq⟩) ?_
  intro kck kek s₂ hrand hc hap hraw _
  split
  · next hsends =>
      have hsends : s.eapolsends = true := congrArg Control.eapolsends hc ▸ hsends
      refine does_mono (sendPacket2_does s₂) fun ks o hr => ?_
      rw [hc, Daemon.sends, hraw, hap] at hr
      exact .inr ⟨hrand, kck, kek, ks, rfl, .inr ⟨hsends, hr⟩⟩
  · next hsends =>
      have hsends : s.eapolsends = false := by
        have := congrArg Control.eapolsends hc
        simpa [Control.keyed, this] using hsends
      rw [does_update]
      exact .inr ⟨hrand, kck, kek, [], rfl, .inl ⟨hsends, rfl, congrArg
        (fun c : Control => Outcome.goes () { c with eapolstate := .waiting24 }) hc⟩⟩

theorem handleRawsock_unheard {sender data : Bytes} {s : Daemon}
    (h : s.hears sender (data.take 1024) = false) :
    ∃ text, handleRawsock sender data s = Handler.warn text s := by
  unfold handleRawsock
  rw [read_bind]
  generalize data.take 1024 = ek at h ⊢
  split
  · exact ⟨_, rfl⟩
  next hsender =>
  split
  · exact ⟨_, rfl⟩
  next hshort =>
  split
  · exact ⟨_, rfl⟩
  next hsize =>
  split
  · exact ⟨_, rfl⟩
  next hpayload =>
  split
  · exact ⟨_, rfl⟩
  next hkey =>
  simp_all [Daemon.hears]

theorem handleRawsock_heard {sender data : Bytes} {s : Daemon}
    (h : s.hears sender (data.take 1024) = true) :
    handleRawsock sender data s = dispatchEapol (data.take 1024) s := by
  simp only [Daemon.hears, Bool.and_eq_true, decide_eq_true_eq] at h
  obtain ⟨⟨⟨⟨hsender, hshort⟩, hsize⟩, hpayload⟩, hkey⟩ := h
  unfold handleRawsock
  rw [read_bind, if_neg (not_not.mpr hsender), if_neg (not_lt.mpr hshort),
    if_neg (not_not.mpr hsize), if_neg (not_lt.mpr hpayload), if_neg (not_not.mpr hkey)]

theorem Daemon.hears_replay {sender data : Bytes} {s : Daemon}
    (h : s.hears sender (data.take 1024) = true) :
    (EapolKey.replay (data.take 1024)).length = 8 := by
  simp only [Daemon.hears, Bool.and_eq_true, decide_eq_true_eq] at h
  exact EapolKey.replay_length h.1.1.1.2

theorem recvPacket1_ignores {ek : Bytes} {s : Daemon} (h : packet1Verdict ek = .ignored) :
    control.Does (recvPacket1 ek) s fun ks o => ks = [] ∧ o = .goes () s.toControl := by
  unfold packet1Verdict at h
  split at h
  · cases h
  next htype =>
  split at h
  · cases h
  next hbits =>
  unfold recvPacket1
  rw [if_neg htype, eq_false_of_ne_true hbits]
  exact ignore_does _ s

theorem recvPacket1_aborts {ek : Bytes} {s : Daemon} (h : packet1Verdict ek = .aborts) :
    control.Does (recvPacket1 ek) s (Abort s.toControl) := by
  unfold packet1Verdict at h
  split at h
  · next htype =>
      unfold recvPacket1
      rw [if_pos htype]
      exact xabort_does _ s
  · split at h <;> cases h

theorem handleRawsock_does (sender data : Bytes) (s : Daemon) :
    control.Does (handleRawsock sender data) s (Frame s sender data) := by
  by_cases hears : s.hears sender (data.take 1024) = true
  swap
  · have hears := eq_false_of_ne_true hears
    obtain ⟨text, hwarn⟩ := handleRawsock_unheard hears
    refine (does_congr hwarn).mpr (does_quiet (quiet_warn text) (.ignored ?_))
    rw [Daemon.verdict, if_neg (by rw [hears]; decide)]
  have hr := Daemon.hears_replay hears
  rw [does_congr (handleRawsock_heard hears)]
  unfold dispatchEapol
  rw [does_read_bind]
  have hverdict : s.verdict sender data = match s.eapolstate with
      | .waiting14 => packet1Verdict (data.take 1024)
      | .waiting34 => packet3Verdict s (data.take 1024)
      | .negotiated => group1Verdict s (data.take 1024)
      | .idle | .waiting24 => .ignored := by rw [Daemon.verdict, if_pos hears]
  cases hstate : s.eapolstate with
  | idle =>
      rw [hstate] at hverdict
      refine does_mono (ignore_does _ s) ?_
      rintro ks o ⟨rfl, rfl⟩
      exact .ignored hverdict
  | waiting24 =>
      rw [hstate] at hverdict
      refine does_mono (ignore_does _ s) ?_
      rintro ks o ⟨rfl, rfl⟩
      exact .ignored hverdict
  | waiting14 =>
      rw [hstate] at hverdict
      have hreplies : s.sends (EapolKey.size + s.ap.ies.length) = s.replies := by
        rw [Daemon.replies, if_pos hstate]
      cases hv : packet1Verdict (data.take 1024) with
      | ignored =>
          refine does_mono (recvPacket1_ignores hv) ?_
          rintro ks o ⟨rfl, rfl⟩
          exact .ignored (hverdict.trans hv)
      | aborts => exact does_mono (recvPacket1_aborts hv) fun ks o h => .aborts (hverdict.trans hv) h
      | taken =>
          refine does_mono (recvPacket1_takes hv) ?_
          rintro ks o (⟨hrand, rfl, ks, rfl, hq⟩ |
            ⟨hrand, kck, kek, ks, rfl, ⟨hearly, rfl, rfl⟩ | ⟨hsends, hrep⟩⟩)
          · exact .packet1_ends _ (hverdict.trans hv) hstate hrand hq
          · exact .packet1_early _ kck kek (hverdict.trans hv) hstate hrand hr hearly
          · exact .packet1 _ kck kek (hverdict.trans hv) hstate hrand hr hsends (hreplies ▸ hrep)
  | waiting34 =>
      rw [hstate] at hverdict
      have hreplies : s.sends EapolKey.size = s.replies := by
        rw [Daemon.replies, if_neg (by rw [hstate]; decide)]
      cases hv : packet3Verdict s (data.take 1024) with
      | ignored => unfold packet3Verdict at hv; split at hv <;> cases hv
      | aborts => exact does_mono (recvPacket3_aborts hv) fun ks o h => .aborts (hverdict.trans hv) h
      | taken =>
          refine does_mono (recvPacket3_takes hv) ?_
          rintro ks o ⟨ks, rfl, hrep⟩
          exact .packet3 _ (hverdict.trans hv) hstate hr (packet3_newer hv) (hreplies ▸ hrep)
  | negotiated =>
      rw [hstate] at hverdict
      have hreplies : s.sends EapolKey.size = s.replies := by
        rw [Daemon.replies, if_neg (by rw [hstate]; decide)]
      cases hv : group1Verdict s (data.take 1024) with
      | ignored =>
          refine does_mono (recvGroup1_ignores hv) ?_
          rintro ks o ⟨rfl, rfl⟩
          exact .ignored (hverdict.trans hv)
      | aborts => exact does_mono (recvGroup1_aborts hv) fun ks o h => .aborts (hverdict.trans hv) h
      | taken =>
          have hne : group1Verdict s (data.take 1024) ≠ .ignored := by simp [hv]
          have hnewer := (recvGroup1_authentic hne).2.2.2.1
          refine does_mono (recvGroup1_takes hv) ?_
          rintro ks o ⟨ks, rfl, hrep⟩
          exact .group1 _ (hverdict.trans hv) hstate hr hnewer (hreplies ▸ hrep)

end Wsupp
