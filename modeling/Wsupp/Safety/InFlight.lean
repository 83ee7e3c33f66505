import Wsupp.Control.Turns

/-!
# Notifications in flight

Beside the daemon stands a kernel that answers every command with its notifications,
in order and after any delay, and says nothing else about the interface. Then a
takeover is never declared, as long as no connection is given up with a notification
still to come; the handlers cannot tell such a late notification from one that
another program has caused.

The state of a run is the daemon with the queue of what is still to come. The
invariant ties the queue to `authstate`: each state has the notifications it waits
for in flight and no others. A connection given up in the middle leaves one too
many.
-/
namespace Wsupp
open Reactive

/-- The notifications the kernel owes for a command that has reached it. -/
def Act.notes : Act → List Netlink.Code
  | .nl (.authenticate ..) true => [.authenticate]
  | .nl (.associate ..) true => [.associate, .connect]
  | .nl .disconnect true => [.disconnect]
  | _ => []

def Act.snaps : Act → Bool
  | .call .snapToDisabled => true
  | _ => false

/-- The codes of the notifications about a connection. -/
def mlmeCodes : List Netlink.Code := [.authenticate, .associate, .connect, .disconnect]

/-- The event delivers a notification about the connection. -/
def Daemon.delivers (s : Daemon) (k : EventKind) : Bool :=
  s.negotiates k || s.notices .disconnect k

/-- An event, and whether it is an error with which the kernel answers the
DISCONNECT it has come to, in place of the notification. -/
structure Delivery where
  event : Event
  refuses : Bool := false

namespace Delivery

def failsAuth (s : Daemon) : EventKind → Bool
  | .netlink (.err seq err) => s.failsAuth seq err
  | _ => false

/-- The daemon and the notifications that are in flight, the next one first. -/
def Enabled (y : System × List Netlink.Code) (d : Delivery) : Prop :=
  y.1.Enabled d.event ∧
    (∀ cmd ∈ mlmeCodes, (y.1.before d.event).notices cmd d.event.kind = true → y.2.head? = some cmd) ∧
    (d.refuses = true → failsAuth (y.1.before d.event) d.event.kind = true ∧
      y.2.head? = some .disconnect)

instance (y : System × List Netlink.Code) (d : Delivery) : Decidable (Enabled y d) :=
  inferInstanceAs (Decidable (_ ∧ _ ∧ _))

/-- What is in flight once the event is taken out. -/
def rest (y : System × List Netlink.Code) (d : Delivery) : List Netlink.Code :=
  if d.refuses || (y.1.before d.event).delivers d.event.kind then y.2.tail else y.2

end Delivery

/-- The daemon and the kernel as one machine. The kernel adds what it will answer to the
end of its queue, and an event that is a notification takes it from the front. -/
def linked : Machine (System × List Netlink.Code) Delivery Act where
  enabled := Delivery.Enabled
  step y d := (((y.1.step d.event).1, d.rest y ++ (y.1.step d.event).2.flatMap Act.notes),
    (y.1.step d.event).2)

instance (y : System × List Netlink.Code) (d : Delivery) : Decidable (linked.enabled y d) :=
  inferInstanceAs (Decidable (d.Enabled y))

/-- What may be in flight in a state of the connection. -/
def AuthState.expects : AuthState → List Netlink.Code → Prop
  | .authenticating, q => q = [] ∨ q = [.authenticate]
  | .associating, q => q = [] ∨ q = [.associate, .connect]
  | .connecting, q => q = [.connect] ∨ q = [.connect, .disconnect]
  | .connected, q | .disconnecting, q => q = [] ∨ q = [.disconnect]
  | .idle, q | .netdown, q => q = []
  | .external, _ => False

/-- The connection is given up, and a notification is still to come. -/
def Delivery.abandons (y : System × List Netlink.Code) (d : Delivery) : Bool :=
  !y.2.isEmpty && !d.refuses && (y.1.before d.event).givesUp d.event.kind

section InFlight
variable {s : Daemon} {k : EventKind} {ks : List Act} {o : Outcome Unit Control}
  {q rest : List Netlink.Code}

theorem Act.notes_filter {p : Act → Bool} (hp : ∀ a, p a = false → a.notes = []) (ks : List Act) :
    (ks.filter p).flatMap Act.notes = ks.flatMap Act.notes := by
  induction ks with
  | nil => rfl
  | cons a ks ih =>
      rw [List.filter_cons, List.flatMap_cons]
      cases hpa : p a with
      | true => rw [if_pos rfl, List.flatMap_cons, ih]
      | false => rw [if_neg (by decide), ih, hp a hpa, List.nil_append]

theorem Act.notes_mlme (a : Act) (h : a.mlme = false) : a.notes = [] := by
  cases a with
  | nl cmd sent => cases cmd <;> first | rfl | cases h
  | _ => rfl

theorem Act.notes_shown (a : Act) (h : a.shown = false) : a.notes = [] := by
  cases a with
  | nl cmd sent => cases cmd <;> first | rfl | cases h
  | _ => rfl

theorem Act.snaps_shown (a : Act) (h : a.snaps = true) : a.shown = true := by
  cases a with
  | call c => rfl
  | _ => cases h

theorem Act.snaps_mlme (ks : List Act) : (ks.filter Act.mlme).any Act.snaps = ks.any Act.snaps := by
  rw [List.any_filter]
  refine List.any_congr rfl fun a => ?_
  cases a with
  | nl cmd sent => cases cmd <;> rfl
  | call c => cases c <;> rfl
  | _ => rfl

section Expects
variable {a : AuthState}

theorem AuthState.expects_disconnect (h : a.expects q) (hq : q.head? = some .disconnect) :
    q.tail = [] ∧ (a = .connected ∨ a = .disconnecting) := by
  cases a <;> simp only [expects] at h
  case idle | netdown => simp [h] at hq
  case connected | disconnecting => rcases h with rfl | rfl <;> simp_all
  all_goals rcases h with rfl | rfl <;> simp at hq

theorem AuthState.expects_authenticate (h : a.expects q) (hq : q.head? = some .authenticate) :
    a = .authenticating ∧ q.tail = [] := by
  cases a <;> simp only [expects] at h
  case idle | netdown => simp [h] at hq
  case authenticating => rcases h with rfl | rfl <;> simp_all
  all_goals rcases h with rfl | rfl <;> simp at hq

theorem AuthState.expects_associate (h : a.expects q) (hq : q.head? = some .associate) :
    a = .associating ∧ q.tail = [.connect] := by
  cases a <;> simp only [expects] at h
  case idle | netdown => simp [h] at hq
  case associating => rcases h with rfl | rfl <;> simp_all
  all_goals rcases h with rfl | rfl <;> simp at hq

theorem AuthState.expects_connect (h : a.expects q) (hq : q.head? = some .connect) :
    a = .connecting ∧ (q.tail = [] ∨ q.tail = [.disconnect]) := by
  cases a <;> simp only [expects] at h
  case idle | netdown => simp [h] at hq
  case connecting => rcases h with rfl | rfl <;> simp
  all_goals rcases h with rfl | rfl <;> simp at hq

end Expects

/-- A turn of a connection under which nothing is left in flight, unless the
connection stays where it is. -/
theorem Turns.expects (h : Turns s k ks o) (hs : s.authstate.expects q)
    (hkeeps : rest = q ∨ q.head? = some .disconnect ∧ rest = q.tail)
    (hloose : s.loose k = true → rest = []) :
    ks.any Act.snaps = false ∧ o.Returns fun c => c.authstate.expects (rest ++ ks.flatMap Act.notes) := by
  cases h with
  | keeps h =>
      refine ⟨rfl, ?_⟩
      change AuthState.expects _ (rest ++ [])
      rw [h, List.append_nil]
      rcases hkeeps with rfl | ⟨hq, rfl⟩
      · exact hs
      · obtain ⟨hnil, ha⟩ := AuthState.expects_disconnect hs hq
        rw [hnil]
        rcases ha with ha | ha <;> rw [ha] <;> exact .inl rfl
  | falls hl h =>
      refine ⟨rfl, ?_⟩
      rw [hloose hl]
      rcases h with h | h <;> simp [Outcome.Returns, AuthState.expects, h]
  | starts bssid freq ssid sent hl h =>
      refine ⟨rfl, ?_⟩
      rw [hloose hl]
      cases sent <;> simp [Outcome.Returns, AuthState.expects, Act.notes, h]
  | gives_up sent hg h =>
      refine ⟨rfl, ?_⟩
      rw [hloose (Daemon.loose_givesUp hg)]
      cases sent <;> simp [Outcome.Returns, AuthState.expects, Act.notes, h]
  | ends => exact ⟨rfl, trivial⟩

/-- The notification that comes is the one the daemon waits for. -/
theorem Netlink.GenEffect.expects {msg : Netlink.Gen} (h : Netlink.GenEffect s msg ks o)
    (hs : s.authstate.expects q) (hq : q.head? = some msg.cmd)
    (hcmd : msg.cmd = .authenticate ∨ msg.cmd = .associate ∨ msg.cmd = .connect) :
    ks.any Act.snaps = false ∧ o.Returns fun c => c.authstate.expects (q.tail ++ ks.flatMap Act.notes) := by
  unfold Netlink.GenEffect at h
  rcases hcmd with hcmd | hcmd | hcmd <;> simp only [hcmd] at h hq
  · obtain ⟨ha, hq⟩ := AuthState.expects_authenticate hs hq
    cases h with
    | external h => exact absurd (ha.symm.trans h) (by decide)
    | snaps _ h => exact absurd ha h
    | associates _ _ _ _ sent _ =>
        refine ⟨rfl, ?_⟩
        rw [hq]
        cases sent <;> simp [Outcome.Returns, AuthState.expects, Act.notes]
  · obtain ⟨ha, hq⟩ := AuthState.expects_associate hs hq
    cases h with
    | external h => exact absurd (ha.symm.trans h) (by decide)
    | snaps _ h => exact absurd ha h
    | allows _ _ | sends _ _ _ _ _ => exact ⟨rfl, by rw [hq]; exact .inl rfl⟩
    | overwrites _ _ sent _ _ _ =>
        refine ⟨rfl, ?_⟩
        rw [hq]
        cases sent <;> simp [Outcome.Returns, AuthState.expects, Act.notes]
  · obtain ⟨ha, hq⟩ := AuthState.expects_connect hs hq
    cases h with
    | external h => exact absurd (ha.symm.trans h) (by decide)
    | overwrites _ h => exact absurd ha h
    | connects _ =>
        refine ⟨rfl, ?_⟩
        rcases hq with hq | hq <;> rw [hq]
        · exact .inl rfl
        · exact .inr rfl

/-- What one event leaves in flight, and that it is no takeover. -/
theorem EventKind.expects (h : k.effect s ks o) (hs : s.authstate.expects q)
    (hnote : ∀ cmd ∈ mlmeCodes, s.notices cmd k = true → q.head? = some cmd) {refuses : Bool}
    (href : refuses = true → q.head? = some .disconnect)
    (hc : (!q.isEmpty && !refuses && s.givesUp k) = false)
    (hrest : rest = if refuses || s.delivers k then q.tail else q) :
    ks.any Act.snaps = false ∧ o.Returns fun c => c.authstate.expects (rest ++ ks.flatMap Act.notes) := by
  cases hneg : s.negotiates k with
  | true =>
      obtain ⟨msg, rfl, hifi, hcmd⟩ := Daemon.negotiates_iff.mp hneg
      rw [Daemon.delivers, hneg, Bool.true_or, Bool.or_true, if_pos rfl] at hrest
      simp only [EventKind.effect, Netlink.MsgEffect, hifi, if_pos] at h
      have hq : q.head? = some msg.cmd := by
        refine hnote _ ?_ (by simp [Daemon.notices, hifi])
        rcases hcmd with hcmd | hcmd | hcmd <;> simp [mlmeCodes, hcmd]
      rw [hrest]
      exact Netlink.GenEffect.expects h hs hq hcmd
  | false =>
      rw [Daemon.delivers, hneg, Bool.false_or] at hrest
      have hpop (hd : refuses = true ∨ s.notices .disconnect k = true) :
          q.head? = some .disconnect ∧ rest = q.tail := by
        refine ⟨hd.elim href (hnote _ (by simp [mlmeCodes])), ?_⟩
        rw [hrest, if_pos (by simpa using hd)]
      have hkeeps : rest = q ∨ q.head? = some .disconnect ∧ rest = q.tail := by
        by_cases hd : refuses = true ∨ s.notices .disconnect k = true
        · exact .inr (hpop hd)
        · rw [if_neg (by simpa using hd)] at hrest
          exact .inl hrest
      -- nothing is in flight: there is no connection, or it ends with what was
      have hnil (hq : q = []) : rest = [] := by
        rcases hkeeps with h | ⟨h, -⟩
        · exact h.trans hq
        · rw [hq] at h
          cases h
      have hgone (hd : refuses = true ∨ s.notices .disconnect k = true) : rest = [] := by
        obtain ⟨hq, htail⟩ := hpop hd
        exact htail.trans (AuthState.expects_disconnect hs hq).1
      have hloose (hl : s.loose k = true) : rest = [] := by
        simp only [Daemon.loose, Bool.or_eq_true, decide_eq_true_eq] at hl
        rcases hl with ((ha | ha) | hg) | hd
        · rw [ha] at hs
          exact hnil hs
        · rw [ha] at hs
          exact hnil hs
        · simp only [hg, Bool.and_true, Bool.and_eq_false_iff, Bool.not_eq_false'] at hc
          rcases hc with hq | hr
          · exact hnil (List.isEmpty_iff.mp hq)
          · exact hgone (.inl hr)
        · exact hgone (.inr hd)
      have hturns := (EventKind.turns hneg h).expects hs hkeeps hloose
      rwa [Act.snaps_mlme, Act.notes_filter Act.notes_mlme] at hturns

end InFlight

/-- What is in flight fits the state of the connection, while the daemon runs. -/
def System.InFlight (y : System × List Netlink.Code) : Prop :=
  y.1.halted = false → y.1.authstate.expects y.2

theorem System.InFlight.step {y : System × List Netlink.Code} (hy : System.InFlight y) {d : Delivery}
    (he : linked.enabled y d) (hc : d.abandons y = false) :
    (linked.step y d).2.any Act.snaps = false ∧ System.InFlight (linked.step y d).1 := by
  obtain ⟨hrun, hnote, href⟩ := he
  have h := EventKind.expects (s := y.1.before d.event) (y.1.step_effect d.event) (hy hrun.1) hnote
    (fun hr => (href hr).2) hc (show d.rest y = _ from rfl)
  have hnotes : (control.outputs (y.1.step d.event).2).flatMap Act.notes =
      (y.1.step d.event).2.flatMap Act.notes := Act.notes_filter Act.notes_shown _
  rw [control_any Act.snaps_shown, hnotes] at h
  exact ⟨h.1, (System.outcome_returns _).mp h.2⟩

/-- Where the kernel only answers the daemon, no takeover is ever declared in a run in
which no connection is given up with a notification still to come. The queue of
notifications and `authstate` go together in every state of such a run. -/
theorem no_own_takeover {x : System} (hx : x.Initial) {ds : List Delivery}
    (hv : linked.Valid (x, []) ds) (hc : linked.Every (fun y d => d.abandons y = false) (x, []) ds) :
    (linked.outputs (x, []) ds).any Act.snaps = false := by
  rw [List.any_eq_false, Machine.every_outputs]
  refine hc.imp (I := System.InFlight) (fun y d hy he hc => (hy.step he hc).2) (fun y d hy he hc => ?_) ?_ hv
  · exact List.any_eq_false.mp (hy.step he hc).1
  · obtain ⟨-, mode, freq, seq, -, hstart⟩ := hx.starts
    intro _
    have ha : x.authstate = .idle := by rw [hstart]; simp
    rw [ha]
    rfl

namespace Sample

def delivered (es : List Event) : List Delivery := es.map fun e => { event := e }

/-- The user gives up before the kernel has answered. -/
def lateNotice : List Delivery := delivered (joining ++ [asks .neutral, notice .authenticate])

end Sample

theorem greeting_no_takeover : (linked.outputs (Sample.start, []) (Sample.delivered
    (Sample.joining ++ [Sample.notice .authenticate, Sample.notice .associate, Sample.packet1 5,
      Sample.event .turn, Sample.notice .connect]))).any Act.snaps = false :=
  no_own_takeover Sample.start_initial (by decide +kernel) (by decide +kernel)

/-- A client asks for the neutral mode just after AUTHENTICATE was sent. The
notification that answers it is taken for that of another program. -/
theorem lateNotice_snaps : Sample.start.Initial ∧
    linked.Valid (Sample.start, []) Sample.lateNotice ∧
    ¬ (linked.outputs (Sample.start, []) Sample.lateNotice).any Act.snaps = false :=
  ⟨Sample.start_initial, by decide +kernel, by decide +kernel⟩

end Wsupp
