import Wsupp.Control.Changes
import Wsupp.Control.TableShape
import Wsupp.Safety.OutgoingFrames
import Wsupp.Safety.StatusMessage

/-!
# Sizes of what the daemon holds

Addresses, names, keys and elements have the sizes of the arrays they are kept in,
whatever comes in. The buffers for what goes out are large enough for them.

`InBounds` has one field for each array. It holds of the daemon the process starts
with and is kept by every change a handler can make, so it holds in every reachable
state; what is copied into an array from a packet, from the PSK file or from a
request has been checked for its length before. From the sizes alone follow the form
of the packets the daemon sends and the room for its status, which are shown for
such states elsewhere and put together here.
-/
namespace Wsupp
open Reactive

/-- Everything fits the arrays and the types of the source: the record and the slots,
the keys and nonces, the counters and both addresses. -/
structure Daemon.InBounds (s : Daemon) : Prop where
  ap : s.ap.Sized
  ies : s.ap.ies.length ≤ 22
  slots : ∀ i, (s.table.get i).Sized
  replay : s.replay.length = 8
  KCK : s.KCK.length = 16
  KEK : s.KEK.length = 16
  anonce : s.anonce.length = 32
  snonce : s.snonce.length = 32
  PTK : s.PTK.length = 16
  GTK : s.GTK.length = 32
  RSC : s.RSC.length = 6
  PSK : s.PSK.length = 32
  smac : s.smac.length = 6
  amac : s.amac.length = 6

section Slots
variable {sc : Scan}

theorem isShort_short (x : Int) : IsShort (short x) := by
  have hlow := Int.le_bmod (x := x) (m := 65536) (by decide)
  have hhigh := Int.bmod_lt (x := x) (m := 65536) (by decide)
  rw [short]
  constructor
  · omega
  · omega

theorem isShort_zero : IsShort 0 := ⟨by decide, by decide⟩

theorem Scan.sized_free : Scan.Sized {} := ⟨isShort_zero, isShort_zero, rfl, rfl, Nat.zero_le _⟩

theorem Bytes.length_memcpy {dst src : Bytes} {n : ℕ} (hsrc : n ≤ src.length) (hdst : n ≤ dst.length) :
    (Bytes.memcpy dst src n).length = dst.length := by
  rw [Bytes.memcpy, List.length_append, List.length_take, List.length_drop]
  omega

theorem setStationSsid_sized (h : sc.Sized) (b : Bytes) : (setStationSsid sc b).Sized := by
  have hslen := slen_setStationSsid sc b
  have hssid := h.ssid
  refine ⟨h.freq, h.signal, h.bssid, ?_, by omega⟩
  rw [← hssid]
  exact Bytes.length_memcpy (min_le_left _ _) (hssid ▸ min_le_right _ _)

theorem parseIes_sized (n : ℕ) (h : sc.Sized) (b : Bytes) : (parseIes n sc b).Sized := by
  induction n generalizing sc b with
  | zero => exact h
  | succ n ih =>
      unfold parseIes
      split
      · exact h
      dsimp only
      split
      · exact h
      apply ih
      split
      · exact setStationSsid_sized h _
      split
      · exact ⟨h.freq, h.signal, h.bssid, h.ssid, h.slen⟩
      split
      · exact ⟨h.freq, h.signal, h.bssid, h.ssid, h.slen⟩
      · exact h

theorem Netlink.scanOf_sized (h : sc.Sized) (bss : Bss) {bssid : Bytes} (hbssid : bssid.length = 6) :
    (scanOf bss bssid sc).Sized := by
  have hslot : Scan.Sized { sc with
      bssid := bssid, freq := short (bss.freq.getD 0), signal := short (bss.signal.getD 0), type := {}
      flags := { sc.flags with stale := false } } :=
    ⟨isShort_short _, isShort_short _, hbssid, h.ssid, h.slen⟩
  unfold scanOf
  dsimp only
  split
  · exact parseIes_sized _ hslot _
  · exact hslot

/-- Grabbing a slot leaves each one as it is, or free. -/
theorem ScanTable.grabScanSlot_get {t t' : ScanTable} {bssid : Bytes} {i : ℕ} (h : t.grabScanSlot bssid = some (i, t'))
    (j : ℕ) : t'.get j = t.get j ∨ t'.get j = {} := by
  unfold grabScanSlot at h
  split at h
  · cases h
    exact .inl rfl
  split at h
  · cases h
    exact .inl rfl
  · obtain ⟨k, -, hk⟩ := Option.map_eq_some_iff.mp h
    cases hk
    rw [get_modify]
    split
    · exact .inr rfl
    · exact .inl rfl

end Slots

theorem length_ptkOf (s : Daemon) : (ptkOf s).length = 60 := by
  unfold ptkOf prf480
  simp only [List.length_append, length_hmacSha1]

theorem storeGtk_sized {tkipgroup : Bool} {gtk key key' : Bytes} (h : storeGtk tkipgroup gtk key = some key')
    (hgtk : gtk.length = 32) : key'.length = 32 := by
  unfold storeGtk at h
  cases tkipgroup with
  | true =>
      rw [if_pos rfl, if_pos rfl] at h
      split_ifs at h with hkey
      cases h
      rw [List.length_append, List.length_append, List.length_take, Bytes.length_slice (by omega),
        Bytes.length_slice (by omega)]
      omega
  | false =>
      rw [if_neg Bool.false_ne_true, if_neg Bool.false_ne_true] at h
      split_ifs at h with hkey
      cases h
      rw [Bytes.length_memcpy (by omega) (by omega), hgtk]

theorem fetchGtkFrom_sized {tkipgroup : Bool} {gtk buf : Bytes} {n ptr : ℕ} {idx : UInt8} {key : Bytes}
    (h : fetchGtkFrom tkipgroup gtk buf n ptr = some (idx, key)) (hgtk : gtk.length = 32) : key.length = 32 := by
  induction n generalizing ptr with
  | zero => cases h
  | succ n ih =>
      rw [fetchGtkFrom] at h
      dsimp only at h
      split_ifs at h
      · exact ih h
      · exact ih h
      · exact ih h
      · obtain ⟨key', hstore, hkey⟩ := Option.map_eq_some_iff.mp h
        cases hkey
        exact storeGtk_sized hstore hgtk

theorem Ap.Sized.same {ap ap' : Ap} (h : ap.Sized) (hsame : ap.Same ap') : ap'.Sized := by
  constructor
  · obtain hfreq | hfreq := hsame.freq
    · rw [hfreq]
      exact h.freq
    · rw [hfreq]
      exact isShort_zero
  · rw [hsame.bssid]
    exact h.bssid
  · rw [hsame.ssid]
    exact h.ssid
  · rw [hsame.slen]
    exact h.slen

theorem Daemon.InBounds.change {s t : Daemon} {out : List Act} (h : s.InBounds) (hc : Change may s out t) : t.InBounds := by
  have hap := h.ap
  cases hc with
  | steer c pollts hkeys =>
      have hreplay := h.replay
      have hkck := h.KCK
      have hkek := h.KEK
      rw [← hkeys.replay] at hreplay
      rw [← hkeys.KCK] at hkck
      rw [← hkeys.KEK] at hkek
      exact ⟨hap, h.ies, h.slots, hreplay, hkck, hkek, h.anonce, h.snonce, h.PTK, h.GTK, h.RSC, h.PSK, h.smac, h.amac⟩
  | store PSK config hpsk => exact { h with PSK := hpsk h.PSK }
  | flags table hnscans hflags =>
      have hslots (i : ℕ) : (table.get i).Sized := by
        obtain ⟨f, hf⟩ := hflags i
        have hslot := h.slots i
        rw [hf]
        exact ⟨hslot.freq, hslot.signal, hslot.bssid, hslot.ssid, hslot.slen⟩
      exact { h with slots := hslots }
  | dropStale =>
      have hslots (i : ℕ) : (s.table.dropStale.get i).Sized := by
        rw [ScanTable.get_dropStale]
        split
        · exact Scan.sized_free
        · exact h.slots i
      exact { h with slots := hslots }
  | result bss bssid i table hlen hgrab =>
      have hslots (j : ℕ) : ((table.modify i (Netlink.scanOf bss bssid)).get j).Sized := by
        have hold : (table.get j).Sized := by
          obtain hsame | hfree := ScanTable.grabScanSlot_get hgrab j
          · rw [hsame]
            exact h.slots j
          · rw [hfree]
            exact Scan.sized_free
        rw [ScanTable.get_modify]
        split
        · exact Netlink.scanOf_sized hold bss hlen
        · exact hold
      exact { h with slots := hslots }
  | remark ap hsame =>
      have hies := h.ies
      rw [← hsame.ies] at hies
      exact { h with ap := hap.same hsame, ies := hies }
  | clearBssid => exact { h with ap := ⟨hap.freq, rfl, hap.ssid, hap.slen⟩ }
  | clearSsid => exact { h with ap := ⟨isShort_zero, hap.bssid, rfl, Nat.zero_le _⟩, PSK := rfl }
  | tune i => exact { h with ap := ⟨(h.slots i).freq, (h.slots i).bssid, hap.ssid, hap.slen⟩ }
  | elements tkip =>
      have hies : (if tkip = true then iesCcmpTkip else iesCcmpCcmp).length ≤ 22 := by
        split
        · exact le_rfl
        · exact le_rfl
      exact { h with ap := ⟨hap.freq, hap.bssid, hap.ssid, hap.slen⟩, ies := hies }
  | name i =>
      have hslot := h.slots i
      have hssid : (Bytes.memcpy s.ap.ssid (s.table.get i).ssid (s.table.get i).slen).length = SSIDLEN := by
        rw [Bytes.length_memcpy (hslot.ssid ▸ hslot.slen) (hap.ssid ▸ hslot.slen), hap.ssid]
      exact { h with ap := ⟨hap.freq, hap.bssid, hssid, hslot.slen⟩ }
  | fix ssid hlen =>
      have hssid : (Bytes.memcpy s.ap.ssid ssid ssid.length).length = SSIDLEN := by
        rw [Bytes.length_memcpy le_rfl (hap.ssid ▸ hlen), hap.ssid]
      exact { h with ap := ⟨hap.freq, hap.bssid, hssid, hlen⟩ }
  | wipe => exact { h with anonce := rfl, snonce := rfl, PTK := rfl, GTK := rfl }
  | reset => exact { h with KCK := rfl, GTK := rfl, KEK := rfl, snonce := rfl, anonce := rfl, amac := rfl }
  | derive =>
      have hlen := length_ptkOf s
      have hpart (off : ℕ) (hoff : off + 16 ≤ 48) : ((ptkOf s).slice off 16).length = 16 :=
        Bytes.length_slice (by omega)
      have hbssid : 6 ≤ s.ap.bssid.length := hap.bssid.ge
      have hamac : (Bytes.memcpy s.amac s.ap.bssid 6).length = 6 := by
        rw [Bytes.length_memcpy hbssid h.amac.ge, h.amac]
      exact { h with
        amac := hamac, KCK := hpart 0 (by omega), KEK := hpart 16 (by omega), PTK := hpart 32 (by omega) }
  | nonce rand hlen => exact { h with snonce := List.length_take_of_le hlen }
  | packet1 ek hlen =>
      rw [EapolKey.size] at hlen
      have hanonce : (EapolKey.nonce ek).length = 32 := Bytes.length_slice (by omega)
      have hreplay : (EapolKey.replay ek).length = 8 := Bytes.length_slice (by omega)
      exact { h with anonce := hanonce, replay := hreplay }
  | keyData ek idx gtk hlen _ _ hfetch =>
      rw [EapolKey.size] at hlen
      have hreplay : (EapolKey.replay ek).length = 8 := Bytes.length_slice (by omega)
      have hrsc : (EapolKey.rsc ek).length = 8 := Bytes.length_slice (by omega)
      have htake : ((EapolKey.rsc ek).take 6).length = 6 := List.length_take_of_le (by omega)
      exact { h with GTK := fetchGtkFrom_sized hfetch h.GTK, replay := hreplay, RSC := htake }
  | _ => exact { h with }

theorem Daemon.inBounds_fresh {smac : Bytes} (hsmac : smac.length = 6) (ifindex : Int) (psks : Bytes) (env : Env) :
    (Daemon.fresh smac ifindex psks env).InBounds := by
  refine ⟨⟨isShort_zero, rfl, rfl, Nat.zero_le _⟩, Nat.zero_le _, fun i => ?_, rfl, rfl, rfl, rfl, rfl, rfl, rfl,
    rfl, rfl, hsmac, rfl⟩
  have hfree : (Daemon.fresh smac ifindex psks env).table.get i = {} := ScanTable.get_empty i
  rw [hfree]
  exact Scan.sized_free

theorem System.Initial.inBounds {x : System} (h : x.Initial) : x.toDaemon.InBounds :=
  h.invariant (fun _ _ _ _ hs hc => hs.change hc) fun _ ifindex psks env hsmac =>
    Daemon.inBounds_fresh hsmac ifindex psks env

section Fits
variable {s : Daemon}

theorem Daemon.InBounds.sized (h : s.InBounds) (hindex : -2 ^ 31 ≤ s.ifindex ∧ s.ifindex < 2 ^ 31) : s.Sized := by
  refine ⟨hindex, h.ap, ?_⟩
  intro sc hsc
  obtain ⟨i, hi, rfl⟩ := List.mem_iff_getElem.mp (List.mem_of_mem_take hsc)
  have hslot := h.slots i
  rw [ScanTable.get, List.getD_eq_getElem _ _ hi] at hslot
  exact hslot

theorem Daemon.InBounds.framesFit (h : s.InBounds) : s.FramesFit := by
  have hies := h.ies
  refine ⟨h.replay, h.snonce, ?_⟩
  rw [EapolKey.size]
  omega

theorem System.Reachable.inBounds {x : System} (h : x.Reachable) : x.InBounds :=
  h.invariant (fun _ _ _ _ hs hc => hs.change hc) fun _ ifindex psks env hsmac =>
    Daemon.inBounds_fresh hsmac ifindex psks env

/-- Whatever comes in, nothing outgrows its array, packets 2/4 and 4/4 fit the buffer
and pass the checks they are received with, and the whole status fits the heap estimated
for it. The index of the interface is an int. -/
theorem reachable_fits {x : System} (hx : x.Reachable) (hindex : -2 ^ 31 ≤ x.ifindex ∧ x.ifindex < 2 ^ 31) :
    x.InBounds ∧ (∀ reply : Outgoing, reply ≠ .group2 → WellFormed x.replay x.KCK (reply.frame x.toDaemon)) ∧
      ∀ ifname heap : Bytes, NameFits ifname → heap.length = Cntrl.prepHeap (Cntrl.estimateStatus x.table.nscans) →
        (Cntrl.buildStatus x.toDaemon ifname heap).isOver = false ∧
          Nlusctl.Holds (Cntrl.statusReply x.toDaemon ifname heap) 0 (Cntrl.statusPuts x.toDaemon ifname).attrs := by
  have hbounds := hx.inBounds
  refine ⟨hbounds, fun reply hreply => Outgoing.wellFormed hbounds.framesFit hreply, ?_⟩
  intro ifname heap hname hheap
  exact Cntrl.status_holds (hbounds.sized hindex) hname hheap

end Fits

theorem found_fits : (supplicant.after Sample.start Sample.halfway).InBounds ∧
    (∀ reply : Outgoing, reply ≠ .group2 →
      WellFormed (supplicant.after Sample.start Sample.halfway).replay (supplicant.after Sample.start Sample.halfway).KCK
        (reply.frame (supplicant.after Sample.start Sample.halfway).toDaemon)) ∧
    ∀ ifname heap : Bytes, NameFits ifname →
      heap.length = Cntrl.prepHeap (Cntrl.estimateStatus (supplicant.after Sample.start Sample.halfway).table.nscans) →
      (Cntrl.buildStatus (supplicant.after Sample.start Sample.halfway).toDaemon ifname heap).isOver = false ∧
        Nlusctl.Holds (Cntrl.statusReply (supplicant.after Sample.start Sample.halfway).toDaemon ifname heap) 0
          (Cntrl.statusPuts (supplicant.after Sample.start Sample.halfway).toDaemon ifname).attrs :=
  reachable_fits ⟨_, _, Sample.start_initial, by decide +kernel, rfl⟩ ⟨by decide +kernel, by decide +kernel⟩

end Wsupp
