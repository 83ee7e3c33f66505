import Wsupp.Control.Session

/-!
# Replay counters and key installation

Between two primes of the EAPOL machine the pairwise key is installed once and each
group key once, because the counters of the packets taken keep growing. The one
packet whose counter is not compared with anything is 1/4: where the reply to it did
not go out, it can be taken again, with any counter.

A monitor follows the packets that are taken, in the order of the outputs, with the
counter of the last one and the installations since the prime. The invariant ties it
to `eapolstate` and to the counter the machine holds. The counters are compared as
the source does it, as byte strings, which is their order as numbers.
-/
namespace Wsupp
open Reactive

/-- What has been taken and installed since the EAPOL machine was primed: the counter of
the last packet, whether the pairwise key is installed, and the packet of the last group
key. -/
structure Counters where
  /-- the counter of the packet taken last -/
  last : Option ℕ := none
  /-- a packet 3/4 or 1/2 has been taken -/
  keyed : Bool := false
  /-- a reply has failed since packet 1/4 was taken -/
  failed : Bool := false
  ptk : Bool := false
  /-- the counter of the packet whose group key was installed last -/
  gtk : Option ℕ := none
deriving DecidableEq

namespace Counters

def next (m : Counters) : Act → Counters
  | .call .primeEapolState => {}
  | .call (.takePacket1 r) => { m with last := some (Bytes.beNat r), failed := false }
  | .call (.takePacket3 _ _ r) | .call (.takeGroup1 _ _ r) =>
      { m with last := some (Bytes.beNat r), keyed := true }
  | .call (.uploadPtk _) => { m with ptk := true }
  | .call (.uploadGtk _ r) => { m with gtk := some (Bytes.beNat r) }
  | .eapol _ _ sent => { m with failed := m.failed || !sent }
  | _ => m

/-- The counter is greater than that of the packet taken last. -/
def Newer (m : Counters) (r : Bytes) : Prop := ∀ n ∈ m.last, n < Bytes.beNat r

instance (m : Counters) (r : Bytes) : Decidable (m.Newer r) :=
  inferInstanceAs (Decidable (∀ n ∈ m.last, n < Bytes.beNat r))

/-- With `retry`, packet 1/4 may come again after a reply that failed. -/
def Allows (retry : Bool) (m : Counters) : Act → Prop
  | .call (.takePacket1 r) => m.Newer r ∨ retry = true ∧ m.keyed = false ∧ m.failed = true
  | .call (.takePacket3 _ _ r) | .call (.takeGroup1 _ _ r) => m.last ≠ none ∧ m.Newer r
  | .call (.uploadPtk _) => m.ptk = false
  | .call (.uploadGtk _ r) => m.last = some (Bytes.beNat r) ∧ ∀ n ∈ m.gtk, n < Bytes.beNat r
  | _ => True

instance (retry : Bool) (m : Counters) (a : Act) : Decidable (m.Allows retry a) :=
  match a with
  | .call (.takePacket1 r) =>
      inferInstanceAs (Decidable (m.Newer r ∨ retry = true ∧ m.keyed = false ∧ m.failed = true))
  | .call (.takePacket3 _ _ r) | .call (.takeGroup1 _ _ r) =>
      inferInstanceAs (Decidable (m.last ≠ none ∧ m.Newer r))
  | .call (.uploadPtk _) => inferInstanceAs (Decidable (m.ptk = false))
  | .call (.uploadGtk _ r) =>
      inferInstanceAs (Decidable (m.last = some (Bytes.beNat r) ∧ ∀ n ∈ m.gtk, n < Bytes.beNat r))
  | .call .primeEapolState | .call .resetEapolState | .call (.pmkToPtk _ _)
  | .call (.handleConnect _) | .call .snapToDisabled => isTrue trivial
  | .nl _ _ | .nlAck _ _ | .eapol _ _ _ | .report _ _ | .reply _ _ | .replyStatus _
  | .replyDevice _ | .shutdownConn _ | .startDhcp _ | .killDhcp _ | .saveState _ | .warn _
  | .exit => isTrue trivial

end Counters

def counterMonitor (retry : Bool) : Monitor Act Counters where
  next := Counters.next
  ok := Counters.Allows retry

instance (retry : Bool) (m : Counters) (a : Act) : Decidable ((counterMonitor retry).ok m a) :=
  inferInstanceAs (Decidable (m.Allows retry a))

theorem counterMonitor_hidden {retry : Bool} (a : Act) (h : a.shown = false) :
    (counterMonitor retry).Ignores a := by
  intro m
  cases a with
  | call c => cases h
  | eapol dest frame sent => cases h
  | _ => exact ⟨rfl, trivial⟩

theorem Radio.counterMonitor {ks : List Act} (h : Radio ks) (retry : Bool) (m : Counters) :
    (counterMonitor retry).run m ks = m ∧ (counterMonitor retry).Accepts m ks := by
  refine h.ignored (fun a ha m => ?_) m
  cases a with
  | nl cmd sent => exact ⟨rfl, trivial⟩
  | nlAck cmd sent => exact ⟨rfl, trivial⟩
  | _ => cases ha

theorem HandleConnect.counterMonitor {c : Control} {ks : List Act} {o : Outcome Unit Control}
    (h : HandleConnect c ks o) (retry : Bool) (m : Counters) :
    (counterMonitor retry).run m ks = m ∧ (counterMonitor retry).Accepts m ks := by
  cases h with
  | connects _ _ _ _ _ => exact ⟨rfl, trivial, trivial, trivial, trivial⟩
  | ends => exact ⟨rfl, trivial, trivial⟩

/-- The counter at hand is the one of the packet taken last, and in each state
of the EAPOL machine it is known what has been installed so far. -/
structure CountersInv (c : Control) (m : Counters) : Prop where
  associating : c.authstate = .associating →
    c.eapolstate = .waiting14 ∧ c.eapolsends = false ∨ c.eapolstate = .waiting24
  first : c.eapolstate = .waiting14 → m.keyed = false ∧ (m.last = none ∨ m.failed = true)
  last : c.eapolstate = .waiting24 ∨ c.eapolstate = .waiting34 ∨ c.eapolstate = .negotiated →
    c.replay.length = 8 ∧ m.last = some (Bytes.beNat c.replay)
  early : c.eapolstate ≠ .idle → c.eapolstate ≠ .negotiated → m.ptk = false ∧ m.gtk = none
  gtk : c.eapolstate = .negotiated → ∀ n ∈ m.gtk, n ≤ Bytes.beNat c.replay

namespace CountersInv
variable {c c' : Control} {m : Counters}

theorem away (h : CountersInv c m) (ha : Away c c') : CountersInv c' m where
  associating has := by
    rw [ha.eapolstate, ha.eapolsends]
    exact h.associating (ha.associating has)
  first := by
    rw [ha.eapolstate]
    exact h.first
  last := by
    rw [ha.eapolstate, ha.replay]
    exact h.last
  early := by
    rw [ha.eapolstate]
    exact h.early
  gtk := by
    rw [ha.eapolstate, ha.replay]
    exact h.gtk

theorem newer (h : CountersInv c m) (hs : c.eapolstate = .waiting34 ∨ c.eapolstate = .negotiated)
    {r : Bytes} (hr : r.length = 8) (hnew : Bytes.memcmp c.replay r < 0) :
    Bytes.beNat c.replay < Bytes.beNat r ∧ m.last ≠ none ∧ m.Newer r := by
  obtain ⟨hlen, hlast⟩ := h.last (.inr hs)
  have hlt := (Bytes.memcmp_neg_iff (hlen.trans hr.symm)).mp hnew
  refine ⟨hlt, by simp [hlast], ?_⟩
  simpa [Counters.Newer, hlast] using hlt

end CountersInv

theorem Session.countersInv {s : Daemon} {k : EventKind} {ks : List Act} {c' : Control}
    {retry : Bool} {m : Counters} (hm : CountersInv s.toControl m) (h : Session s k ks (.goes () c')) :
    CountersInv c' ((counterMonitor retry).run m ks) := by
  cases h with
  | leaves _ h =>
      rw [(h.1.counterMonitor retry m).1]
      exact hm.away h.2
  | resets as _ has h =>
      rw [Monitor.run_cons, (h.1.counterMonitor retry _).1]
      refine CountersInv.away ?_ h.2
      exact ⟨fun ha => absurd ha has, hm.first, hm.last, hm.early, hm.gtk⟩
  | snaps as _ has => exact ⟨fun ha => absurd ha has, hm.first, hm.last, hm.early, hm.gtk⟩
  | primes bssid freq ssid ies sent _ =>
      exact ⟨fun _ => .inl ⟨rfl, rfl⟩, fun _ => ⟨rfl, .inl rfl⟩, by simp, fun _ _ => ⟨rfl, rfl⟩, by simp⟩
  | allows _ ha hs => exact ⟨by simp, hm.first, hm.last, hm.early, hm.gtk⟩
  | sends dest frame _ ha hs =>
      have hs24 := (hm.associating ha).resolve_left fun h => hs h.1
      have hearly := hm.early (by simp [hs24]) (by simp [hs24])
      exact ⟨by simp, by simp, fun _ => hm.last (.inl hs24), fun _ _ => hearly, by simp⟩
  | overwrites dest frame sent _ ha hs =>
      exact ⟨by simp, fun h => absurd h hs, hm.last, hm.early, hm.gtk⟩
  | packet1_early r kck kek _ hs hr =>
      exact ⟨fun _ => .inr rfl, by simp, fun _ => ⟨hr, rfl⟩,
        fun _ _ => hm.early (by simp [hs]) (by simp [hs]), by simp⟩
  | packet1_sent r kck kek dest frame _ hs hsends hr =>
      have has : s.authstate ≠ .associating := fun ha => by simpa [hs, hsends] using hm.associating ha
      exact ⟨fun ha => absurd ha has, by simp, fun _ => ⟨hr, rfl⟩,
        fun _ _ => hm.early (by simp [hs]) (by simp [hs]), by simp⟩
  | packet1_fails r kck kek dest frame _ hs _ hr h =>
      rw [Monitor.run_cons, Monitor.run_cons, Monitor.run_cons, (h.1.counterMonitor retry _).1]
      refine CountersInv.away ?_ h.2
      exact ⟨hm.associating, fun _ => ⟨(hm.first hs).1, .inr rfl⟩,
        fun h => by simp [Control.keyed, hs] at h,
        fun _ _ => hm.early (by simp [hs]) (by simp [hs]), fun h => by simp [Control.keyed, hs] at h⟩
  | packet3_sent r dest frame _ hs hr hnew h =>
      rw [Monitor.run_cons, Monitor.run_cons, Monitor.run_cons, Monitor.run_cons,
        (h.counterMonitor retry _).1]
      refine CountersInv.away ?_ h.away
      have has : s.authstate ≠ .associating := fun ha => by simpa [hs] using hm.associating ha
      exact ⟨fun ha => absurd ha has, by simp, fun _ => ⟨hr, rfl⟩, fun _ h => absurd rfl h,
        fun _ n hn => (Option.some.inj hn).ge⟩
  | packet3_fails r dest frame _ hs hr hnew h =>
      rw [Monitor.run_cons, Monitor.run_cons, (h.1.counterMonitor retry _).1]
      refine CountersInv.away ?_ h.2
      exact ⟨hm.associating, fun h => by simp [hs] at h, fun _ => ⟨hr, rfl⟩, hm.early,
        fun h => by simp [hs] at h⟩
  | group1_sent r dest frame _ hs hr hnew =>
      exact ⟨hm.associating, fun h => by simp [hs] at h, fun _ => ⟨hr, rfl⟩,
        fun _ h => absurd hs h, fun _ n hn => (Option.some.inj hn).ge⟩
  | group1_fails r dest frame _ hs hr hnew h =>
      rw [Monitor.run_cons, Monitor.run_cons, (h.1.counterMonitor retry _).1]
      refine CountersInv.away ?_ h.2
      have hlt := (hm.newer (.inr hs) hr hnew).1
      exact ⟨hm.associating, fun h => by simp [hs] at h, fun _ => ⟨hr, rfl⟩,
        fun _ h => absurd hs h, fun _ n hn => (hm.gtk hs n hn).trans hlt.le⟩

theorem Session.countersAllowed {s : Daemon} {k : EventKind} {ks : List Act}
    {o : Outcome Unit Control} {m : Counters} (hm : CountersInv s.toControl m)
    (h : Session s k ks o) : (counterMonitor true).Accepts m ks := by
  have hretry (r : Bytes) (hs : s.eapolstate = .waiting14) :
      m.Newer r ∨ true = true ∧ m.keyed = false ∧ m.failed = true := by
    obtain ⟨hkeyed, hnone | hfailed⟩ := hm.first hs
    · exact .inl fun n hn => by simp [hnone] at hn
    · exact .inr ⟨rfl, hkeyed, hfailed⟩
  cases h with
  | leaves _ h => exact (h.radio.counterMonitor true m).2
  | resets as _ _ h => exact ⟨trivial, (h.radio.counterMonitor true m).2⟩
  | snaps as _ _ => exact ⟨trivial, trivial, trivial⟩
  | primes bssid freq ssid ies sent _ => exact ⟨trivial, trivial, trivial⟩
  | allows _ _ _ => trivial
  | sends dest frame _ _ _ => exact ⟨trivial, trivial⟩
  | overwrites dest frame sent _ _ _ => exact ⟨trivial, trivial, trivial⟩
  | packet1_ends r _ hs h => exact ⟨hretry r hs, (h.counterMonitor true _).2⟩
  | packet1_early r kck kek _ hs _ => exact ⟨hretry r hs, trivial, trivial⟩
  | packet1_sent r kck kek dest frame _ hs _ _ => exact ⟨hretry r hs, trivial, trivial, trivial⟩
  | packet1_fails r kck kek dest frame _ hs _ _ h =>
      exact ⟨hretry r hs, trivial, trivial, (h.radio.counterMonitor true _).2⟩
  | packet3_sent r dest frame _ hs hr hnew h =>
      obtain ⟨hptk, hgtk⟩ := hm.early (by simp [hs]) (by simp [hs])
      refine ⟨(hm.newer (.inl hs) hr hnew).2, trivial, hptk, ⟨rfl, fun n hn => ?_⟩,
        (h.counterMonitor true _).2⟩
      change n ∈ m.gtk at hn
      simp [hgtk] at hn
  | packet3_fails r dest frame _ hs hr hnew h =>
      exact ⟨(hm.newer (.inl hs) hr hnew).2, trivial, (h.radio.counterMonitor true _).2⟩
  | group1_sent r dest frame _ hs hr hnew =>
      obtain ⟨hlt, hnewer⟩ := hm.newer (.inr hs) hr hnew
      exact ⟨hnewer, trivial, ⟨rfl, fun n hn => (hm.gtk hs n hn).trans_lt hlt⟩, trivial⟩
  | group1_fails r dest frame _ hs hr hnew h =>
      exact ⟨(hm.newer (.inr hs) hr hnew).2, trivial, (h.radio.counterMonitor true _).2⟩

/-- Over any run, the pairwise key is installed once and each group key once in every
session, for packets whose counters grow. Only a packet 1/4 may come again with another
counter, if the reply to the one before did not go out; at that point no key has been
installed. -/
theorem no_key_reinstallation {x : System} (hx : x.Initial) {es : List Event}
    (hv : supplicant.Valid x es) : (counterMonitor true).Accepts {} (supplicant.outputs x es) := by
  rw [Monitor.accepts_outputs]
  refine Machine.every_of_step (I := fun y => y.1.halted = false → CountersInv y.1.toControl y.2)
    ?_ ?_ ?_ ((Machine.record_valid ..).mpr hv)
  · exact System.watch_keeps counterMonitor_hidden fun s k m ks c' hm h =>
      (EventKind.session h).countersInv hm
  · intro y e hy he
    rw [← (System.control_run counterMonitor_hidden _ _).2]
    exact Session.countersAllowed (s := y.1.before e) (hy he.1) (System.step_session y.1 e)
  · obtain ⟨-, mode, freq, seq, -, hc⟩ := hx.starts
    have h : CountersInv { opermode := mode, timerset := true } {} :=
      ⟨by simp, by simp, by simp, fun h => absurd rfl h, by simp⟩
    exact fun _ => hc ▸ h.away (.startScan _ freq seq)

namespace Sample

/-- Packet 1/4 with counter 5, to which no reply goes out, then one with counter 3. -/
def fallingCounter : List Event :=
  joining ++ [notice .authenticate, notice .associate, refused (packet1 5), event .turn, packet1 3]

end Sample

/-- The keys of a handshake and those of the group key update after it. -/
theorem handshake_installs_once : (counterMonitor true).Accepts {}
    (supplicant.outputs Sample.start (Sample.handshake ++ [Sample.groupPacket])) :=
  no_key_reinstallation Sample.start_initial Sample.handshake_valid

/-- The socket refuses packet 2/4, so the machine still waits for packet 1/4, and takes
the next one although its counter is smaller. -/
theorem fallingCounter_taken : Sample.start.Initial ∧
    supplicant.Valid Sample.start Sample.fallingCounter ∧
    ¬ (counterMonitor false).Accepts {} (supplicant.outputs Sample.start Sample.fallingCounter) :=
  ⟨Sample.start_initial, by decide +kernel, by decide +kernel⟩

end Wsupp
