import Wsupp.NetlinkOutput
import Wsupp.Safety.NetlinkRoundTrip
import Wsupp.Safety.Sizes

/-!
# Every command goes out whole

The buffer for netlink messages has room for every command, with what the daemon
holds when it is sent. The kernel gets the command with all of its attributes, under
sequence numbers that follow one another.

That there is room follows from the sizes of what the daemon holds, an invariant of
every run. A monitor carries the buffer from one command to the next, as the source
does, so that what one message leaves in it is there when the next is put together.
Each message is read back attribute by attribute. The commands before the loop, of
which the first scan is one, are covered like those of a run.
-/
namespace Wsupp
open Reactive Wire Nl

/-- The sizes the attributes have on the wire. -/
def NlCommand.Sized : NlCommand → Prop
  | .triggerScan _ | .getScan | .disconnect => True
  | .authenticate bssid _ ssid => bssid.length = 6 ∧ ssid.length ≤ SSIDLEN
  | .associate bssid _ ssid ies => bssid.length = 6 ∧ ssid.length ≤ SSIDLEN ∧ ies.length ≤ 22
  | .newPairwiseKey bssid key => bssid.length = 6 ∧ key.length = 16
  | .newGroupKey _ tkip key seq => key.length = (if tkip then 32 else 16) ∧ seq.length = 6

/-- The header behind the length. -/
structure Nl.Header (fam : UInt16) (seq flags : ℕ) (cmd : UInt8) (b : Bytes) : Prop where
  type : b.le16 4 = fam.toNat
  flags : b.le16 6 = flags
  seq : b.le32 8 = seq
  pid : b.le32 12 = 0
  cmd : b.slice 16 4 = [cmd, 0, 0, 0]

/-- The message read back: the header, the length and every attribute, with nothing else
behind them. The numbers of the attributes are those of nl80211. -/
structure NlCommand.Encodes (fam : UInt16) (ifindex : Int) (seq flags : ℕ) (c : NlCommand) (b : Bytes) : Prop where
  fits : b.length ≤ 512
  len : Nlmsg.len b = b.length
  header : Header fam seq flags c.cmd b
  attrs : Decodes b (subs b) (Nl.attrs b) (Nl.attrs b).first (c.puts ifindex).attrs

namespace Nl
section Header
variable {x : Packing} {F : Puts} {fam : UInt16} {cmd ver : UInt8}

theorem nlAlloc_seq (nl : Netlink) (size : ℕ) : (nlAlloc nl size).2.seq = nl.seq := by
  unfold nlAlloc
  split_ifs
  · rfl
  · rfl
  · rfl

theorem setMsgLen_seq (nl : Netlink) : (setMsgLen nl).seq = nl.seq := by
  unfold setMsgLen
  split
  · rfl
  · rfl

theorem Packing.call_seq (x : Packing) (c : Call) : (x.call c).nl.seq = x.nl.seq := by
  cases c with
  | put type buf =>
      have halloc := nlAlloc_seq x.nl (Nlattr.size + buf.length)
      rw [call, nlPut]
      dsimp only
      cases h : nlAlloc x.nl (Nlattr.size + buf.length) with
      | mk p nl =>
          rw [h] at halloc
          cases p with
          | none => exact halloc
          | some p => exact (setMsgLen_seq _).trans halloc
  | putNest type =>
      have halloc := nlAlloc_seq x.nl Nlattr.size
      rw [call, nlPutNest]
      cases h : nlAlloc x.nl Nlattr.size with
      | mk p nl =>
          rw [h] at halloc
          cases p with
          | none => exact halloc
          | some p => exact halloc
  | endNest k =>
      rw [call]
      cases x.nests.getD k none with
      | none => rfl
      | some p =>
          rw [nlEndNest]
          split_ifs
          · rfl
          · rfl

theorem Packing.run_seq (x : Packing) (cs : List Call) : (x.run cs).nl.seq = x.nl.seq := by
  induction cs generalizing x with
  | nil => rfl
  | cons c cs ih => rw [run_cons, ih, call_seq]

theorem newCmd_seq (x : Packing) (fam : UInt16) (cmd ver : UInt8) :
    (x.newCmd fam cmd ver).nl.seq = (x.nl.seq + 1) % 2 ^ 32 := by
  have halloc := nlAlloc_seq { x.nl with txend := 0, txover := false, seq := (x.nl.seq + 1) % 2 ^ 32 } Nlgen.size
  rw [Packing.newCmd, nlNewCmd, nlStartPacket]
  cases h : nlAlloc { x.nl with txend := 0, txover := false, seq := (x.nl.seq + 1) % 2 ^ 32 } Nlgen.size with
  | mk p nl =>
      rw [h] at halloc
      cases p with
      | none => exact halloc
      | some p => exact halloc

theorem Puts.message_seq (F : Puts) (x : Packing) (fam : UInt16) (cmd ver : UInt8) :
    (F.message x fam cmd ver).nl.seq = (x.nl.seq + 1) % 2 ^ 32 := by
  rw [message, Packing.run_seq, newCmd_seq]

theorem slice_nlgenBytes (fam : UInt16) (seq : ℕ) (cmd ver : UInt8) :
    (nlgenBytes fam seq cmd ver).slice 4 2 = Bytes.ofLe 2 fam.toNat ∧
      (nlgenBytes fam seq cmd ver).slice 6 2 = Bytes.ofLe 2 NLM_F_REQUEST ∧
      (nlgenBytes fam seq cmd ver).slice 8 4 = Bytes.ofLe 4 seq ∧
      (nlgenBytes fam seq cmd ver).slice 12 4 = Bytes.ofLe 4 0 ∧
      (nlgenBytes fam seq cmd ver).slice 16 4 = [cmd, ver, 0, 0] := ⟨rfl, rfl, rfl, rfl, rfl⟩

theorem newCmd_bytes (x : Packing) (fam : UInt16) (cmd ver : UInt8) (h : 20 ≤ x.nl.txbuf.length) :
    (x.newCmd fam cmd ver).nl.txbuf.slice 0 20 = nlgenBytes fam ((x.nl.seq + 1) % 2 ^ 32) cmd ver := by
  have hfits := @nlAlloc_fits { x.nl with txend := 0, txover := false, seq := (x.nl.seq + 1) % 2 ^ 32 } 20 rfl
    (by dsimp only; omega)
  have hpoke (mem gen : Bytes) (hgen : gen.length = 20) : (mem.poke 0 gen).slice 0 20 = gen := by
    rw [← hgen]
    exact Bytes.slice_poke (Nat.zero_le _)
  rw [Packing.newCmd, nlNewCmd_some hfits]
  exact hpoke _ _ (length_nlgenBytes ..)

/-- Only the length in the header changes as attributes are put. -/
theorem Puts.message_bytes (hfilled : F.Filled) (hroom : 20 + F.attrs.size ≤ x.nl.txbuf.length)
    {o k : ℕ} (ho : 4 ≤ o) (hok : o + k ≤ 20) :
    (F.message x fam cmd ver).nl.txbuf.slice o k =
      (nlgenBytes fam ((x.nl.seq + 1) % 2 ^ 32) cmd ver).slice o k := by
  obtain ⟨hbuilt, -⟩ := F.message_built fam cmd ver hfilled hroom
  obtain ⟨-, hstart, -⟩ := newCmd_spec x fam cmd ver (by omega)
  have hslice := Bytes.slice_slice (x.newCmd fam cmd ver).nl.txbuf hok 0
  rw [Nat.zero_add, newCmd_bytes x fam cmd ver (by omega)] at hslice
  rw [hslice]
  exact hbuilt.before o k ho (by omega)

theorem Puts.message_header (fam : UInt16) (cmd : UInt8) (hfilled : F.Filled) (hroom : 20 + F.attrs.size ≤ x.nl.txbuf.length) :
    Header fam ((x.nl.seq + 1) % 2 ^ 32) NLM_F_REQUEST cmd (F.message x fam cmd 0).nl.txbuf := by
  have hseq : (x.nl.seq + 1) % 2 ^ 32 < 2 ^ 32 := Nat.mod_lt _ (by norm_num)
  have hfam : fam.toNat < 65536 := fam.toNat_lt
  obtain ⟨htype, hflags, hseqs, hpid, hcmd⟩ := slice_nlgenBytes fam ((x.nl.seq + 1) % 2 ^ 32) cmd 0
  constructor
  · rw [Bytes.le16, F.message_bytes hfilled hroom le_rfl (by omega), htype, Bytes.leNat_ofLe]
    exact Nat.mod_eq_of_lt hfam
  · rw [Bytes.le16, F.message_bytes hfilled hroom (by omega) (by omega), hflags, Bytes.leNat_ofLe]
    rfl
  · rw [Bytes.le32, F.message_bytes hfilled hroom (by omega) (by omega), hseqs, Bytes.leNat_ofLe]
    exact Nat.mod_eq_of_lt hseq
  · rw [Bytes.le32, F.message_bytes hfilled hroom (by omega) (by omega), hpid, Bytes.leNat_ofLe]
    rfl
  · rw [F.message_bytes hfilled hroom (by omega) (by omega), hcmd]

theorem Header.orFlags {b : Bytes} {seq flags : ℕ} (h : Header fam seq flags cmd b) (f : ℕ) (hb : 20 ≤ b.length)
    (hf : flags ||| f < 65536) : Header fam seq (flags ||| f) cmd (b.poke 6 (Bytes.ofLe 2 (b.le16 6 ||| f))) := by
  have htwo (n : ℕ) : (Bytes.ofLe 2 n).length = 2 := Bytes.length_ofLe 2 n
  have hafter (o k : ℕ) (ho : 8 ≤ o) (n : ℕ) : (b.poke 6 (Bytes.ofLe 2 n)).slice o k = b.slice o k :=
    Bytes.slice_poke_after (by omega) (by rw [htwo]; exact ho)
  have hin (n : ℕ) : (b.poke 6 (Bytes.ofLe 2 n)).slice 6 2 = Bytes.ofLe 2 n := by
    have hpoke := Bytes.slice_poke (b := Bytes.ofLe 2 n) (show 6 ≤ b.length by omega)
    rw [htwo] at hpoke
    exact hpoke
  rw [h.flags]
  constructor
  · rw [Bytes.le16, Bytes.slice_poke_before (by omega) (by omega)]
    exact h.type
  · rw [Bytes.le16, hin, Bytes.leNat_ofLe]
    exact Nat.mod_eq_of_lt hf
  · rw [Bytes.le32, hafter 8 4 le_rfl]
    exact h.seq
  · rw [Bytes.le32, hafter 12 4 (by omega)]
    exact h.pid
  · rw [hafter 16 4 (by omega)]
    exact h.cmd

end Header
end Nl

section Attributes
variable {c : NlCommand} {ifindex : Int}

theorem NlCommand.length_i32 (v : Int) : (i32 v).length = 4 := Bytes.length_ofLe 4 _

theorem NlCommand.puts_filled (c : NlCommand) (ifindex : Int) : (c.puts ifindex).Filled ∧ c.puts ifindex ≠ .done := by
  have hput (type : UInt16) (buf : Bytes) (rest : Puts) : Puts.put type buf rest ≠ .done := fun h => Puts.noConfusion h
  cases c with
  | triggerScan freq =>
      cases freq with
      | none => exact ⟨trivial, hput _ _ _⟩
      | some freq => exact ⟨⟨hput _ _ _, trivial, trivial⟩, hput _ _ _⟩
  | newPairwiseKey bssid key => exact ⟨⟨hput _ _ _, trivial, trivial⟩, hput _ _ _⟩
  | newGroupKey index tkip key seq => exact ⟨⟨hput _ _ _, trivial, trivial⟩, hput _ _ _⟩
  | _ => exact ⟨trivial, hput _ _ _⟩

theorem NlCommand.Sized.size_puts (h : c.Sized) (ifindex : Int) : (c.puts ifindex).attrs.size ≤ 112 := by
  have halign (n : ℕ) : align4 (4 + n) < n + 8 := by
    have hlt := align4_lt (4 + n)
    omega
  have hi32 (v : Int) : align4 (4 + (i32 v).length) = 8 := by
    rw [length_i32]
    rfl
  have h0 : align4 (4 + 0) = 4 := rfl
  have h1 : align4 (4 + 1) = 8 := rfl
  have h6 : align4 (4 + 6) = 12 := rfl
  cases c with
  | triggerScan freq =>
      cases freq with
      | none =>
          simp only [puts, Puts.attrs, Wire.Attrs.size, hi32]
          omega
      | some freq =>
          simp only [puts, Puts.attrs, Wire.Attrs.size, hi32]
          omega
  | authenticate bssid freq ssid =>
      obtain ⟨hbssid, hssid⟩ := h
      have hname := halign ssid.length
      rw [SSIDLEN] at hssid
      simp only [puts, Puts.attrs, Wire.Attrs.size, hi32, hbssid, h6]
      omega
  | associate bssid freq ssid ies =>
      obtain ⟨hbssid, hssid, hies⟩ := h
      have hname := halign ssid.length
      have helements := halign ies.length
      rw [SSIDLEN] at hssid
      simp only [puts, Puts.attrs, Wire.Attrs.size, hi32, hbssid, h6]
      omega
  | newPairwiseKey bssid key =>
      obtain ⟨hbssid, hkey⟩ := h
      have hdata := halign key.length
      have hzeros : (Bytes.zeros 6).length = 6 := List.length_replicate
      simp only [puts, keyType, Puts.attrs, Wire.Attrs.size, hi32, hbssid, hzeros, h0, h1, h6,
        List.length_singleton, List.length_nil]
      omega
  | newGroupKey index tkip key seq =>
      obtain ⟨hkey, hseq⟩ := h
      have hdata := halign key.length
      have hshort : key.length ≤ 32 := by
        rw [hkey]
        split
        · exact le_rfl
        · omega
      simp only [puts, keyType, Puts.attrs, Wire.Attrs.size, hi32, hseq, h0, h1, h6,
        List.length_singleton, List.length_nil]
      omega
  | _ =>
      simp only [puts, Puts.attrs, Wire.Attrs.size, hi32]
      omega

theorem Attrs.small_of_size {F : Wire.Attrs} (h : F.size < 65536) : F.Small := by
  induction F with
  | nil => trivial
  | attr key payload rest ih =>
      have hle := le_align4 (4 + payload.length)
      rw [Wire.Attrs.size] at h
      exact ⟨by omega, ih (by omega)⟩
  | nest key subs rest ihsubs ih =>
      rw [Wire.Attrs.size] at h
      exact ⟨by omega, ihsubs (by omega), ih (by omega)⟩

end Attributes

/-- The command lies in the buffer, ready to be sent. -/
structure NlCommand.Lies (fam : UInt16) (ifindex : Int) (flags : ℕ) (c : NlCommand) (nl : Nl.Netlink) : Prop where
  buf : nl.txbuf.length = 512
  txend : nl.txend = 20 + (c.puts ifindex).attrs.size
  fits : nl.txend ≤ 512
  txover : nl.txover = false
  len : Nlmsg.len nl.txbuf = nl.txend
  header : Header fam nl.seq flags c.cmd nl.txbuf
  laid : Laid nl.txbuf 20 (c.puts ifindex).attrs

section Buffer
variable {c : NlCommand} {fam : UInt16} {ifindex : Int} {nl : Nl.Netlink} {flags : ℕ}

theorem NlCommand.Sized.lies (h : c.Sized) (fam : UInt16) (ifindex : Int) (hbuf : nl.txbuf.length = 512) :
    c.Lies fam ifindex NLM_F_REQUEST (c.packed fam ifindex nl) := by
  have hsize := h.size_puts ifindex
  obtain ⟨hfilled, hne⟩ := c.puts_filled ifindex
  have hroom : 20 + (c.puts ifindex).attrs.size ≤ nl.txbuf.length := by omega
  obtain ⟨hbuilt, hend⟩ := Puts.message_built (x := { nl := nl }) fam c.cmd 0 hfilled hroom
  obtain ⟨hlength, hstart, -⟩ := newCmd_spec { nl := nl } fam c.cmd 0 (by dsimp only; omega)
  have hlaid := hbuilt.laid (Attrs.small_of_size (by omega))
  rw [hstart] at hlaid
  have hheader := Puts.message_header (x := { nl := nl }) fam c.cmd hfilled hroom
  constructor
  · exact hbuilt.length.trans (hlength.trans hbuf)
  · exact hend
  · exact hend.le.trans (by omega)
  · exact hbuilt.txover
  · exact (hbuilt.msgLen hne).trans (Nat.mod_eq_of_lt (by omega))
  · rw [packed, Puts.message_seq]
    exact hheader
  · exact hlaid

theorem NlCommand.Lies.orFlags (h : c.Lies fam ifindex flags nl) (f : ℕ) (hf : flags ||| f < 65536) :
    ∃ nl', nlOrFlags nl f = some nl' ∧ nl'.seq = nl.seq ∧ c.Lies fam ifindex (flags ||| f) nl' := by
  have htwo (n : ℕ) : (Bytes.ofLe 2 n).length = 2 := Bytes.length_ofLe 2 n
  have hend := h.txend
  have hbuf := h.buf
  have hmsg : nlTxMsg nl = some 0 := if_neg (by rw [Nlmsg.size]; omega)
  have hlen := h.len
  refine ⟨_, (congrArg _ hmsg).trans rfl, rfl, ?_⟩
  constructor
  · rw [Bytes.length_poke (by rw [htwo]; omega)]
    exact hbuf
  · exact hend
  · exact h.fits
  · exact h.txover
  · rw [Nlmsg.len, Bytes.le32, Bytes.slice_poke_before (by omega) (by omega)]
    exact hlen
  · exact h.header.orFlags f (by omega) hf
  · apply h.laid.copy
    intro o k hok
    exact (Bytes.slice_poke_after (by omega) (by rw [htwo]; omega)).symm

theorem NlCommand.Lies.sent (h : c.Lies fam ifindex flags nl) (rd : Int) :
    (Nl.nlSend nl rd).2.1 = some (nl.txbuf.slice 0 nl.txend) ∧
      c.Encodes fam ifindex nl.seq flags (nl.txbuf.slice 0 nl.txend) := by
  have hend := h.txend
  have hbuf := h.buf
  have hfits := h.fits
  have hlength : (nl.txbuf.slice 0 nl.txend).length = nl.txend := Bytes.length_slice (by omega)
  have hslice (o k : ℕ) (hok : o + k ≤ nl.txend) : (nl.txbuf.slice 0 nl.txend).slice o k = nl.txbuf.slice o k := by
    have hin := Bytes.slice_slice nl.txbuf hok 0
    rw [Nat.zero_add] at hin
    exact hin
  have hheader := h.header
  have hlen : Nlmsg.len (nl.txbuf.slice 0 nl.txend) = nl.txend := by
    rw [Nlmsg.len, Bytes.le32, hslice 0 4 (by omega)]
    exact h.len
  have hlaid : Laid (nl.txbuf.slice 0 nl.txend) 20 (c.puts ifindex).attrs := by
    apply h.laid.copy
    intro o k hok
    exact (hslice (20 + o) k (by omega)).symm
  have hover := @attrs_over (nl.txbuf.slice 0 nl.txend) (by omega)
  rw [hlen] at hover
  constructor
  · rw [Nl.nlSend, if_neg (by omega), if_neg (by rw [h.txover]; exact Bool.false_ne_true)]
  constructor
  · omega
  · omega
  · constructor
    · rw [Bytes.le16, hslice 4 2 (by omega)]
      exact hheader.type
    · rw [Bytes.le16, hslice 6 2 (by omega)]
      exact hheader.flags
    · rw [Bytes.le32, hslice 8 4 (by omega)]
      exact hheader.seq
    · rw [Bytes.le32, hslice 12 4 (by omega)]
      exact hheader.pid
    · rw [hslice 16 4 (by omega)]
      exact hheader.cmd
  · rw [hover.first_eq hlaid hend.symm]
    apply hlaid.decodes (fun _ => True) _ (Attrs.nests_any _) hover le_rfl hend.symm
    intro p G _ _ hp
    exact subs_over (by omega)

end Buffer

/-- The flags a command is sent with. -/
def NlCommand.flags : NlCommand → ℕ
  | .getScan => NLM_F_REQUEST ||| NLM_F_DUMP
  | _ => NLM_F_REQUEST

/-- The socket is given the command under the next number. -/
def NlCommand.Goes (fam : UInt16) (ifindex : Int) (nl : Nl.Netlink) (flags : ℕ) (c : NlCommand) (b : Option Bytes) : Prop :=
  c.Sized ∧ ∃ bytes, b = some bytes ∧ c.Encodes fam ifindex ((nl.seq + 1) % 2 ^ 32) flags bytes

/-- The buffer is filled for every command, and nothing but the command gets out. As a
monitor it keeps the buffer and the sequence number from one command to the next. -/
def sending (fam : UInt16) (ifindex : Int) : Monitor Act Nl.Netlink where
  next nl a := (a.transmit fam ifindex nl).2
  ok nl
    | .nl c sent => c.Goes fam ifindex nl c.flags (Act.transmit fam ifindex nl (.nl c sent)).1
    | .nlAck c sent => c.Goes fam ifindex nl (NLM_F_REQUEST ||| NLM_F_ACK) (Act.transmit fam ifindex nl (.nlAck c sent)).1
    | _ => True

section Sending
variable {c : NlCommand} {fam : UInt16} {ifindex : Int} {nl : Nl.Netlink} {flags : ℕ} {s t : Daemon} {k : List Act}

theorem nlSend_buf (nl : Nl.Netlink) (rd : Int) :
    (Nl.nlSend nl rd).2.2.txbuf = nl.txbuf ∧ (Nl.nlSend nl rd).2.2.seq = nl.seq := by
  unfold Nl.nlSend
  by_cases hend : nl.txend = 0
  · rw [if_pos hend]
    exact ⟨rfl, rfl⟩
  rw [if_neg hend]
  by_cases hover : nl.txover = true
  · rw [if_pos hover]
    exact ⟨rfl, rfl⟩
  · rw [if_neg hover]
    exact ⟨rfl, rfl⟩

/-- The command goes out, and the buffer is there for the next one. -/
theorem NlCommand.Lies.goes (h : c.Lies fam ifindex flags nl) (rd : Int) :
    (∃ bytes, (Nl.nlSend nl rd).2.1 = some bytes ∧ c.Encodes fam ifindex nl.seq flags bytes) ∧
      (Nl.nlSend nl rd).2.2.txbuf.length = 512 ∧ (Nl.nlSend nl rd).2.2.seq = nl.seq := by
  obtain ⟨hsent, hencodes⟩ := h.sent rd
  obtain ⟨htxbuf, hseq⟩ := nlSend_buf nl rd
  rw [htxbuf]
  exact ⟨⟨_, hsent, hencodes⟩, h.buf, hseq⟩

theorem NlCommand.packed_seq (c : NlCommand) (fam : UInt16) (ifindex : Int) (nl : Nl.Netlink) :
    (c.packed fam ifindex nl).seq = (nl.seq + 1) % 2 ^ 32 :=
  Puts.message_seq _ _ fam c.cmd 0

theorem NlCommand.Lies.flagged (h : c.Lies fam ifindex NLM_F_REQUEST nl) {f : ℕ} (hf : NLM_F_REQUEST ||| f < 65536) (rd : Int) :
    ∃ nl', nlOrFlags nl f = some nl' ∧
      (∃ bytes, (Nl.nlSend nl' rd).2.1 = some bytes ∧ c.Encodes fam ifindex nl.seq (NLM_F_REQUEST ||| f) bytes) ∧
      (Nl.nlSend nl' rd).2.2.txbuf.length = 512 ∧ (Nl.nlSend nl' rd).2.2.seq = nl.seq := by
  obtain ⟨nl', hflags, hseq, hlies⟩ := h.orFlags f hf
  have hgoes := hlies.goes rd
  rw [hseq] at hgoes
  exact ⟨nl', hflags, hgoes⟩

theorem NlCommand.Sized.goes (h : c.Sized) (fam : UInt16) (ifindex : Int) (hbuf : nl.txbuf.length = 512) (sent : Bool) :
    c.Goes fam ifindex nl c.flags (Act.transmit fam ifindex nl (.nl c sent)).1 ∧
      (Act.transmit fam ifindex nl (.nl c sent)).2.txbuf.length = 512 ∧
      (Act.transmit fam ifindex nl (.nl c sent)).2.seq = (nl.seq + 1) % 2 ^ 32 := by
  have hlies := h.lies fam ifindex hbuf
  have hseq := c.packed_seq fam ifindex nl
  have hplain := hlies.goes (if sent then 1 else 0)
  rw [hseq] at hplain
  cases c with
  | getScan =>
      obtain ⟨nl', hflags, hgoes, hroom, hnext⟩ := hlies.flagged (f := NLM_F_DUMP) (by decide) (if sent then 1 else 0)
      rw [hseq] at hgoes hnext
      rw [Act.transmit, send, nlSendDump, hflags]
      exact ⟨⟨h, hgoes⟩, hroom, hnext⟩
  | _ =>
      rw [Act.transmit, send]
      · exact ⟨⟨h, hplain.1⟩, hplain.2⟩
      · intro hget
        cases hget

theorem NlCommand.Sized.goesAck (h : c.Sized) (fam : UInt16) (ifindex : Int) (hbuf : nl.txbuf.length = 512) (sent : Bool) :
    c.Goes fam ifindex nl (NLM_F_REQUEST ||| NLM_F_ACK) (Act.transmit fam ifindex nl (.nlAck c sent)).1 ∧
      (Act.transmit fam ifindex nl (.nlAck c sent)).2.txbuf.length = 512 ∧
      (Act.transmit fam ifindex nl (.nlAck c sent)).2.seq = (nl.seq + 1) % 2 ^ 32 := by
  have hlies := h.lies fam ifindex hbuf
  have hseq := c.packed_seq fam ifindex nl
  obtain ⟨nl', hflags, hgoes, hroom, hnext⟩ := hlies.flagged (f := NLM_F_ACK) (by decide) (if sent then 1 else 0)
  rw [hseq] at hgoes hnext
  rw [Act.transmit, nlSendAck, hflags]
  exact ⟨⟨h, hgoes⟩, hroom, hnext⟩

/-- What the daemon holds has the sizes that are sent. -/
theorem NlCommand.Of.sized (h : c.Of s) (hs : s.InBounds) : c.Sized := by
  have hap := hs.ap
  have hname : (s.ap.ssid.take s.ap.slen).length ≤ SSIDLEN :=
    (List.length_take_le' _ _).trans hap.ssid.le
  cases c with
  | authenticate bssid freq ssid =>
      obtain ⟨rfl, -, rfl⟩ := h
      exact ⟨hap.bssid, hname⟩
  | associate bssid freq ssid ies =>
      obtain ⟨rfl, -, rfl, rfl⟩ := h
      exact ⟨hap.bssid, hname, hs.ies⟩
  | newPairwiseKey bssid key =>
      obtain ⟨rfl, rfl⟩ := h
      exact ⟨hap.bssid, List.length_take_of_le hs.PTK.ge⟩
  | newGroupKey index tkip key seq =>
      obtain ⟨-, rfl, rfl, rfl⟩ := h
      have hGTK := hs.GTK
      refine ⟨List.length_take_of_le ?_, List.length_take_of_le hs.RSC.ge⟩
      split
      · exact hGTK.ge
      · omega
  | _ => trivial

/-- The buffer is there, and counts what the daemon counts; and what the daemon holds
has the sizes of its arrays. -/
structure Counted (ifindex : Int) (nl : Nl.Netlink) (s : Daemon) : Prop where
  bounds : s.InBounds
  ifindex : s.ifindex = ifindex
  buf : nl.txbuf.length = 512
  seq : nl.seq = s.seq

theorem Counted.change (h : Counted ifindex nl s) (hc : Change may s k t) :
    (sending fam ifindex).Accepts nl k ∧ Counted ifindex ((sending fam ifindex).run nl k) t := by
  have hbounds := h.bounds.change hc
  have hindex := h.ifindex
  have hbuf := h.buf
  have hseq := h.seq
  cases hc with
  | command c sent env hof =>
      obtain ⟨hgoes, hroom, hnext⟩ := (hof.sized h.bounds).goes fam ifindex hbuf sent
      exact ⟨⟨hgoes, trivial⟩, hbounds, hindex, hroom, hnext.trans (by rw [hseq])⟩
  | disconnects sent env =>
      obtain ⟨hgoes, hroom, hnext⟩ :=
        NlCommand.Sized.goesAck (c := .disconnect) trivial fam ifindex hbuf sent
      exact ⟨⟨hgoes, trivial⟩, hbounds, hindex, hroom, hnext.trans (by rw [hseq])⟩
  | plain a hbare =>
      cases a with
      | nl c sent => cases hbare
      | nlAck c sent => cases hbare
      | _ => exact ⟨⟨trivial, trivial⟩, hbounds, hindex, hbuf, hseq⟩
  | replies a hreply _ =>
      cases a with
      | nl c sent => cases hreply
      | nlAck c sent => cases hreply
      | _ => exact ⟨⟨trivial, trivial⟩, hbounds, hindex, hbuf, hseq⟩
  | reports r conns hr => exact ⟨⟨trivial, trivial⟩, hbounds, hindex, hbuf, hseq⟩
  | saves => exact ⟨⟨trivial, trivial⟩, hbounds, hindex, hbuf, hseq⟩
  | packet frame sent hframe => exact ⟨⟨trivial, trivial⟩, hbounds, hindex, hbuf, hseq⟩
  | killDhcp hpid => exact ⟨⟨trivial, trivial⟩, hbounds, hindex, hbuf, hseq⟩
  | startDhcp pid hpid => exact ⟨⟨trivial, trivial⟩, hbounds, hindex, hbuf, hseq⟩
  | _ => exact ⟨trivial, hbounds, hindex, hbuf, hseq⟩

end Sending

/-- Through every run, whatever comes in, each command reaches the socket as a whole
message with exactly its attributes and the next number; the number by which replies are
told apart is the one that was sent. This is so from the start of the process on, with
the commands that come before the loop. -/
theorem commands_reach_kernel {x : System} (hx : x.Initial) {nl : Nl.Netlink} (hbuf : nl.txbuf.length = 512)
    (hseq : nl.seq = x.seq) (fam : UInt16) {es : List Event} (hv : supplicant.Valid x es) :
    ((sending fam x.ifindex).Accepts nl (supplicant.outputs x es) ∧
      ((sending fam x.ifindex).run nl (supplicant.outputs x es)).seq = (supplicant.after x es).seq) ∧
    ∀ {smac : Bytes} {ifindex : Int} {psks : Bytes} {file : Option Bytes} {env : Env} {nl : Nl.Netlink},
      smac.length = 6 → x = System.started file (.fresh smac ifindex psks env) → nl.txbuf.length = 512 → nl.seq = 0 →
      (sending fam ifindex).Accepts nl ((boot file (.fresh smac ifindex psks env)).out ++ supplicant.outputs x es) ∧
        ((sending fam ifindex).run nl ((boot file (.fresh smac ifindex psks env)).out ++ supplicant.outputs x es)).seq =
          (supplicant.after x es).seq := by
  have hrun {ifindex : Int} {nl : Nl.Netlink} (hcounted : Counted ifindex nl x.toDaemon) :
      (sending fam ifindex).Accepts nl (supplicant.outputs x es) ∧
        ((sending fam ifindex).run nl (supplicant.outputs x es)).seq = (supplicant.after x es).seq := by
    obtain ⟨haccepts, hlast⟩ := System.run_monitored (fun _ _ _ _ _ h hc => h.change hc) hcounted hv
    exact ⟨haccepts, hlast.seq⟩
  refine ⟨hrun ⟨hx.inBounds, rfl, hbuf, hseq⟩, ?_⟩
  intro smac ifindex psks file env nl hsmac hstarted hbuf hseq
  have hfresh : Counted ifindex nl (.fresh smac ifindex psks env) :=
    ⟨Daemon.inBounds_fresh hsmac ifindex psks env, rfl, hbuf, hseq⟩
  have hboot := System.boot_path file (.fresh smac ifindex psks env)
  obtain ⟨hbooted, hcounted⟩ := hboot.monitored (D := sending fam ifindex) (fun _ _ _ _ h hc => h.change hc) hfresh
  rw [← hstarted] at hcounted
  obtain ⟨haccepts, hlast⟩ := hrun hcounted
  rw [Monitor.accepts_append, Monitor.run_append]
  exact ⟨⟨hbooted, haccepts⟩, hlast⟩

theorem joining_reaches_kernel :
    ((sending 28 3).Accepts { txbuf := Bytes.zeros 512, seq := Sample.start.seq }
        (supplicant.outputs Sample.start Sample.joining) ∧
      ((sending 28 3).run { txbuf := Bytes.zeros 512, seq := Sample.start.seq }
        (supplicant.outputs Sample.start Sample.joining)).seq = (supplicant.after Sample.start Sample.joining).seq) ∧
    (sending 28 3).Accepts { txbuf := Bytes.zeros 512 }
      ((boot none (.fresh [2, 0, 0, 0, 0, 9] 3 [] {})).out ++ supplicant.outputs Sample.start Sample.joining) := by
  have hreach := @commands_reach_kernel Sample.start Sample.start_initial
    { txbuf := Bytes.zeros 512, seq := Sample.start.seq } List.length_replicate rfl 28 Sample.joining (by decide +kernel)
  exact ⟨hreach.1, (hreach.2 rfl rfl List.length_replicate rfl).1⟩

end Wsupp
