import Wsupp.Control.Session

/-!
# Keys of a session

Every packet that is answered should have been checked with keys of the session:
derived since the EAPOL machine was last primed, and not cleared since. The machine
does not ensure that by itself, because clearing the keys leaves it in the state it
is in; this module says exactly when it goes wrong.

A monitor follows the nonces that are taken and the keys that are derived, cleared
and used. The invariant ties what the machine holds to what the monitor has seen. In
a run every key in use is a fresh one if and only if no packet 3/4 or 1/2 is
accepted after a loss and before the next prime.
-/
namespace Wsupp
open Reactive

/-- What there is to know of the keys, from the calls made so far: the keys that are
fresh, those taken into use, and whether they have been cleared. -/
structure Keys where
  /-- the KCK and the KEK derived last since the machine was primed -/
  fresh : Option (Bytes × Bytes) := none
  /-- the keys have been cleared since the machine was primed -/
  dead : Bool := false
  /-- the keys the packet 3/4 or 1/2 last taken was checked and unwrapped with -/
  taken : Option (Bytes × Bytes) := none
deriving DecidableEq

def Keys.next (m : Keys) : Act → Keys
  | .call .primeEapolState => {}
  | .call .resetEapolState => { m with dead := true }
  | .call (.pmkToPtk kck kek) => { m with fresh := some (kck, kek) }
  | .call (.takePacket3 kck kek _) | .call (.takeGroup1 kck kek _) =>
      { m with taken := some (kck, kek) }
  | _ => m

/-- The packet taken last was checked with keys of a session that still stands. -/
def Keys.Sound (m : Keys) : Prop := m.dead = false ∧ ∀ k, m.taken = some k → m.fresh = some k

instance (m : Keys) : Decidable m.Sound :=
  decidable_of_iff (m.dead = false ∧ (m.taken = none ∨ m.taken = m.fresh)) <| by
    unfold Keys.Sound
    cases m.taken with
    | none => simp
    | some k => simp [eq_comm (a := some k)]

/-- Replies that go out, key uploads and connections need sound keys. -/
def Act.needsKeys : Act → Bool
  | .eapol _ _ sent => sent
  | .call (.uploadPtk _) | .call (.uploadGtk ..) | .call (.handleConnect _) => true
  | _ => false

def keyMonitor : Monitor Act Keys where
  next := Keys.next
  ok m a := a.needsKeys = true → m.Sound

instance (m : Keys) (a : Act) : Decidable (keyMonitor.ok m a) :=
  inferInstanceAs (Decidable (a.needsKeys = true → m.Sound))

theorem keyMonitor_hidden (a : Act) (h : a.shown = false) : keyMonitor.Ignores a := by
  intro m
  cases a with
  | call c => cases h
  | eapol dest frame sent => cases h
  | _ => exact ⟨rfl, fun hn => by cases hn⟩

theorem keyMonitor_radio (a : Act) (h : a.radio = true) : keyMonitor.Ignores a := by
  intro m
  cases a with
  | nl cmd sent => exact ⟨rfl, fun hn => by cases hn⟩
  | nlAck cmd sent => exact ⟨rfl, fun hn => by cases hn⟩
  | _ => cases h

theorem Radio.keyMonitor {ks : List Act} (h : Radio ks) (m : Keys) :
    keyMonitor.run m ks = m ∧ keyMonitor.Accepts m ks :=
  h.ignored keyMonitor_radio m

theorem Radio.needsKeys {ks : List Act} (h : Radio ks) : ∀ a ∈ ks, a.needsKeys = false := by
  intro a ha
  have hradio := h a ha
  cases a with
  | nl cmd sent => rfl
  | nlAck cmd sent => rfl
  | _ => cases hradio

theorem keyMonitor_accepts_quiet {ks : List Act} (h : ∀ a ∈ ks, a.needsKeys = false) (m : Keys) :
    keyMonitor.Accepts m ks := by
  induction ks generalizing m with
  | nil => exact trivial
  | cons a ks ih =>
      rw [List.forall_mem_cons] at h
      refine ⟨fun ha => ?_, ih h.2 _⟩
      rw [h.1] at ha
      cases ha

/-- The keys in use while the machine is past packet 1/4 are those of the session,
and an association under way is one of a session that stands. -/
structure KeysInv (c : Control) (m : Keys) : Prop where
  associating : c.authstate = .associating → c.eapolstate ≠ .idle ∧ m.dead = false
  fresh : m.dead = false → c.eapolstate = .waiting24 ∨ c.eapolstate = .waiting34 ∨
    c.eapolstate = .negotiated → m.fresh = some (c.KCK, c.KEK)
  taken : m.dead = false → ∀ k, m.taken = some k → m.fresh = some k
  early : m.dead = false → c.eapolstate = .waiting14 → m.taken = none

theorem KeysInv.away {c c' : Control} {m : Keys} (h : KeysInv c m) (ha : Away c c') :
    KeysInv c' m where
  associating has := by rw [ha.eapolstate]; exact h.associating (ha.associating has)
  fresh hd := by rw [ha.eapolstate, ha.kck, ha.kek]; exact h.fresh hd
  taken := h.taken
  early hd := by rw [ha.eapolstate]; exact h.early hd

theorem KeysInv.primed {c : Control} (ha : c.authstate = .associating → c.eapolstate ≠ .idle)
    (hs : c.eapolstate = .idle ∨ c.eapolstate = .waiting14) : KeysInv c {} where
  associating has := ⟨ha has, rfl⟩
  fresh _ h := by rcases hs with hs | hs <;> simp [hs] at h
  taken _ k hk := by cases hk
  early _ _ := rfl

/-- Outside a standing session nothing is promised about the keys. -/
theorem KeysInv.dead {c : Control} {m : Keys} (ha : c.authstate ≠ .associating)
    (hd : m.dead = true) : KeysInv c m where
  associating has := absurd has ha
  fresh h := by rw [hd] at h; cases h
  taken h := by rw [hd] at h; cases h
  early h := by rw [hd] at h; cases h

theorem KeysInv.sound {c : Control} {m : Keys} (h : KeysInv c m) : m.Sound ↔ m.dead = false :=
  ⟨fun hs => hs.1, fun hd => ⟨hd, h.taken hd⟩⟩

theorem KeysInv.past_packet1 {c : Control} {m : Keys}
    (has : c.authstate = .associating → m.dead = false)
    (hs : c.eapolstate ≠ .idle ∧ c.eapolstate ≠ .waiting14)
    (hf : m.dead = false → m.fresh = some (c.KCK, c.KEK))
    (ht : m.dead = false → ∀ k, m.taken = some k → m.fresh = some k) : KeysInv c m where
  associating h := ⟨hs.1, has h⟩
  fresh hd _ := hf hd
  taken := ht
  early _ h := absurd h hs.2

/-- Packet 1/4 gives the session new keys; nothing has been taken under old ones. -/
theorem KeysInv.derive {c : Control} {m : Keys} (h : KeysInv c m) (hs : c.eapolstate = .waiting14)
    (kck kek : Bytes) :
    m.dead = false → ∀ k, m.taken = some k → (some (kck, kek) : Option (Bytes × Bytes)) = some k := by
  intro hd k hk
  rw [h.early hd hs] at hk
  cases hk

/-- The keys a packet 3/4 or 1/2 is checked with are those of the session. -/
theorem KeysInv.take {c : Control} {m : Keys} (h : KeysInv c m)
    (hs : c.eapolstate = .waiting34 ∨ c.eapolstate = .negotiated) (hd : m.dead = false) :
    m.fresh = some (c.KCK, c.KEK) :=
  h.fresh hd (.inr hs)

theorem HandleConnect.keyMonitor {c : Control} {ks : List Act} {o : Outcome Unit Control}
    (h : HandleConnect c ks o) (m : Keys) :
    keyMonitor.run m ks = m ∧ (keyMonitor.Accepts m ks ↔ m.Sound) := by
  cases h with
  | connects _ _ _ _ _ => exact ⟨rfl, fun h => h.1 rfl, fun h =>
      ⟨fun _ => h, keyMonitor_accepts_quiet (by simp [Act.needsKeys]) m⟩⟩
  | ends => exact ⟨rfl, fun h => h.1 rfl, fun h => ⟨fun _ => h, trivial⟩⟩

theorem Session.keysInv {s : Daemon} {k : EventKind} {ks : List Act} {c' : Control} {m : Keys}
    (hm : KeysInv s.toControl m) (h : Session s k ks (.goes () c')) :
    KeysInv c' (keyMonitor.run m ks) := by
  cases h with
  | leaves _ h =>
      rw [(h.1.keyMonitor m).1]
      exact hm.away h.2
  | resets as _ has h =>
      rw [Monitor.run_cons, (h.1.keyMonitor _).1]
      exact .dead (fun ha => has (h.2.associating ha)) rfl
  | snaps as _ has => exact .dead has rfl
  | primes bssid freq ssid ies sent _ =>
      exact .primed (by simp) (.inr rfl)
  | allows _ ha hs => exact ⟨by simp, hm.fresh, hm.taken, hm.early⟩
  | sends dest frame _ ha hs =>
      obtain ⟨hidle, hd⟩ := hm.associating ha
      refine .past_packet1 (by simp) (by simp) (fun _ => hm.fresh hd ?_) hm.taken
      cases he : s.eapolstate <;> simp_all
  | overwrites dest frame sent _ ha hs => exact ⟨by simp, hm.fresh, hm.taken, hm.early⟩
  | packet1_early r kck kek _ hs hr =>
      exact .past_packet1 (fun h => (hm.associating h).2) (by simp) (fun _ => rfl)
        (hm.derive hs kck kek)
  | packet1_sent r kck kek dest frame _ hs _ hr =>
      exact .past_packet1 (fun h => (hm.associating h).2) (by simp) (fun _ => rfl)
        (hm.derive hs kck kek)
  | packet1_fails r kck kek dest frame _ hs _ hr h =>
      have hkeyed : KeysInv (s.toControl.keyed r kck kek) { m with fresh := some (kck, kek) } :=
        ⟨hm.associating, fun _ => (by simp [Control.keyed, hs]), hm.derive hs kck kek, hm.early⟩
      rw [Monitor.run_cons, Monitor.run_cons, Monitor.run_cons, (h.1.keyMonitor _).1]
      exact hkeyed.away h.2
  | packet3_sent r dest frame _ hs hr hnew h =>
      rw [Monitor.run_cons, Monitor.run_cons, Monitor.run_cons, Monitor.run_cons, (h.keyMonitor _).1]
      refine KeysInv.away ?_ h.away
      exact .past_packet1 (fun h => (hm.associating h).2) (by simp) (hm.take (.inl hs))
        fun hd k hk => (hm.take (.inl hs) hd).trans hk
  | packet3_fails r dest frame _ hs hr hnew h =>
      rw [Monitor.run_cons, Monitor.run_cons, (h.1.keyMonitor _).1]
      refine KeysInv.away ?_ h.2
      exact .past_packet1 (fun h => (hm.associating h).2) (by simp [hs]) (hm.take (.inl hs))
        fun hd k hk => (hm.take (.inl hs) hd).trans hk
  | group1_sent r dest frame _ hs hr hnew =>
      exact .past_packet1 (fun h => (hm.associating h).2) (by simp [hs]) (hm.take (.inr hs))
        fun hd k hk => (hm.take (.inr hs) hd).trans hk
  | group1_fails r dest frame _ hs hr hnew h =>
      rw [Monitor.run_cons, Monitor.run_cons, (h.1.keyMonitor _).1]
      refine KeysInv.away ?_ h.2
      exact .past_packet1 (fun h => (hm.associating h).2) (by simp [hs]) (hm.take (.inr hs))
        fun hd k hk => (hm.take (.inr hs) hd).trans hk

/-- What a step is allowed to put out: an answer to a packet is not sound if the
keys are dead, and every other use of the keys is sound. -/
theorem Session.keyMonitor {s : Daemon} {k : EventKind} {ks : List Act} {o : Outcome Unit Control}
    {m : Keys} (hm : KeysInv s.toControl m) (h : Session s k ks o) :
    keyMonitor.Accepts m ks ↔ ¬ (m.dead = true ∧ s.answers k = true) := by
  have hquiet {ks : List Act} (hk : s.answers k = false) (hks : ∀ a ∈ ks, a.needsKeys = false) :
      Wsupp.keyMonitor.Accepts m ks ↔ ¬ (m.dead = true ∧ s.answers k = true) :=
    iff_of_true (keyMonitor_accepts_quiet hks m) (by simp [hk])
  -- an answer is judged with what the packet left of the keys, `m'`
  have hanswer {ks : List Act} (m' : Keys) (hk : s.answers k = true) (hd : m'.dead = m.dead)
      (ht : m.dead = false → ∀ k, m'.taken = some k → m'.fresh = some k)
      (hacc : Wsupp.keyMonitor.Accepts m ks ↔ m'.Sound) :
      Wsupp.keyMonitor.Accepts m ks ↔ ¬ (m.dead = true ∧ s.answers k = true) := by
    rw [hacc, hk, Keys.Sound, hd, ← Bool.not_eq_true]
    refine ⟨fun h => fun hd => h.1 hd.1, fun h => ?_⟩
    have hd : ¬ m.dead = true := fun hd => h ⟨hd, rfl⟩
    exact ⟨hd, ht (eq_false_of_ne_true hd)⟩
  cases h with
  | leaves hk h => exact hquiet hk h.radio.needsKeys
  | resets as hk _ h => exact hquiet hk (by simpa [Act.needsKeys] using h.radio.needsKeys)
  | snaps as hk _ => exact hquiet hk (by simp [Netlink.takeover, Act.needsKeys])
  | primes bssid freq ssid ies sent hk => exact hquiet hk (by simp [Act.needsKeys])
  | allows hk _ _ => exact hquiet hk (by simp)
  | sends dest frame hk ha _ =>
      refine iff_of_true ⟨fun _ => ?_, trivial⟩ (by simp [hk])
      exact hm.sound.mpr (hm.associating ha).2
  | overwrites dest frame sent hk _ _ => exact hquiet hk (by simp [Act.needsKeys])
  | packet1_ends r hk _ h => exact hquiet hk (by simpa [Act.needsKeys] using h.needsKeys)
  | packet1_early r kck kek hk _ _ => exact hquiet hk (by simp [Act.needsKeys])
  | packet1_sent r kck kek dest frame hk hs _ _ =>
      refine hanswer { m with fresh := some (kck, kek) } hk rfl (hm.derive hs kck kek) ?_
      exact ⟨fun h => h.2.2.1 rfl, fun h => ⟨by simp [Wsupp.keyMonitor, Act.needsKeys], by simp [Wsupp.keyMonitor, Act.needsKeys], fun _ => h, trivial⟩⟩
  | packet1_fails r kck kek dest frame hk _ _ _ h =>
      exact hquiet hk (by simpa [Act.needsKeys] using h.radio.needsKeys)
  | packet3_sent r dest frame hk hs hr hnew h =>
      refine hanswer { m with taken := some (s.KCK, s.KEK) } hk rfl
        (fun hd k hk => (hm.take (.inl hs) hd).trans hk) ?_
      refine ⟨fun h => h.2.1 rfl, fun hs => ?_⟩
      exact ⟨by simp [Wsupp.keyMonitor, Act.needsKeys], fun _ => hs, fun _ => hs, fun _ => hs, (h.keyMonitor _).2.mpr hs⟩
  | packet3_fails r dest frame hk _ _ _ h =>
      exact hquiet hk (by simpa [Act.needsKeys] using h.radio.needsKeys)
  | group1_sent r dest frame hk hs hr hnew =>
      refine hanswer { m with taken := some (s.KCK, s.KEK) } hk rfl
        (fun hd k hk => (hm.take (.inr hs) hd).trans hk) ?_
      exact ⟨fun h => h.2.1 rfl, fun h => ⟨by simp [Wsupp.keyMonitor, Act.needsKeys], fun _ => h, fun _ => h, trivial⟩⟩
  | group1_fails r dest frame hk _ _ _ h =>
      exact hquiet hk (by simpa [Act.needsKeys] using h.radio.needsKeys)

/-- A run of the daemon uses the keys of the session it is in, and no others, exactly if
no packet that it answers comes once the keys are cleared. One direction is the
invariant; for the other, such a packet is itself the use of keys that are none. -/
theorem keys_fresh_iff {x : System} (hx : x.Initial) {es : List Event} (hv : supplicant.Valid x es) :
    keyMonitor.Accepts {} (supplicant.outputs x es) ↔
      (keyMonitor.watch supplicant).Every
        (fun y e => ¬ (y.2.dead = true ∧ (y.1.before e).answers e.kind = true)) (x, {}) es := by
  rw [Monitor.accepts_outputs]
  refine Machine.every_congr (I := fun y => y.1.halted = false → KeysInv y.1.toControl y.2)
    ?_ ?_ ?_ ((Machine.record_valid ..).mpr hv)
  · intro y e hy he _
    exact System.watch_keeps (I := KeysInv) keyMonitor_hidden
      (fun s k m ks c' hm h => (EventKind.session h).keysInv hm) y e hy he
  · intro y e hy he
    rw [← (System.control_run keyMonitor_hidden _ _).2]
    exact (System.step_session y.1 e).keyMonitor (hy he.1)
  · obtain ⟨-, mode, freq, seq, -, hc⟩ := hx.starts
    have h : KeysInv { opermode := mode, timerset := true } {} :=
      .primed (by simp) (.inl rfl)
    exact fun _ => hc ▸ h.away (.startScan _ freq seq)

namespace Sample

/-- The first half of a handshake, as it should go. -/
def greeting : List Event :=
  joining ++ [notice .authenticate, notice .associate, packet1 5]

/-- The connection is lost before packet 1/4 has come, which then answers the
next attempt too early. -/
def latePacket : List Event :=
  joining ++ [notice .authenticate, notice .associate, notice .disconnect, event .turn, connect, packet1 5]

end Sample

theorem greeting_keys_fresh : keyMonitor.Accepts {} (supplicant.outputs Sample.start Sample.greeting) :=
  (keys_fresh_iff Sample.start_initial (by decide +kernel)).mpr (by decide +kernel)

theorem latePacket_answered : Sample.start.Initial ∧ supplicant.Valid Sample.start Sample.latePacket ∧
    ¬ keyMonitor.Accepts {} (supplicant.outputs Sample.start Sample.latePacket) :=
  ⟨Sample.start_initial, by decide +kernel, by decide +kernel⟩

end Wsupp
