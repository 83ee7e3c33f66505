import Wsupp.Control.Link

/-!
# Commands that are not sent

Every command goes through `nl_send`, which tells a failed `sendto` by a positive
value. Its callers look for a negative one, so none of them ever notices.

The callers are gathered in one type, from the start of a scan to the key uploads,
with the state in which each of them sends at all. For every one of them the daemon
goes on as if the command were under way: the scan state or the state of the
connection is set, and nothing is retried before the timer. So the condition under
which failures are noticed is that there is none.
-/
namespace Wsupp
open Reactive Prog View

/-- The functions that build a command and send it, with the callers of `send_check`
among them and the frequency of a scan as the one argument. -/
inductive Sender where
  | startScan (freq : Int)
  | triggerScanDump
  | triggerAuthentication
  | triggerAssociation
  | triggerDisconnect
  | uploadPtk
  | uploadGtk
deriving DecidableEq

/-- What the next `sendto` on the netlink socket returns. -/
def Daemon.sendto (s : Daemon) : Int := s.env.nlSend.headD 1

namespace Sender

/-- Functions without a result return zero here. -/
def handler : Sender → Handler Int
  | startScan freq => Wsupp.startScan freq
  | triggerScanDump => Wsupp.triggerScanDump >>= fun _ => pure 0
  | triggerAuthentication => Wsupp.triggerAuthentication >>= fun _ => pure 0
  | triggerAssociation => Wsupp.triggerAssociation >>= fun _ => pure 0
  | triggerDisconnect => Wsupp.triggerDisconnect >>= fun _ => pure 0
  | uploadPtk => Wsupp.uploadPtk >>= fun _ => pure 0
  | uploadGtk => Wsupp.uploadGtk >>= fun _ => pure 0

/-- A scan under way is joined, or refused, without a command. -/
def sends (s : Daemon) : Sender → Bool
  | startScan _ => s.scanstate = .idle
  | _ => true

/-- How a caller that knows of the failure comes out. -/
def GivesUp : Sender → Outcome Int Control → Prop
  | startScan _, .goes ret c => ret < 0 ∧ c.scanstate = .idle ∧ c.scanreq = {}
  | triggerScanDump, .goes _ c => c.scanstate = .idle ∧ c.scanreq = {} ∧ c.scanseq = 0
  | startScan _, .ends => False
  | triggerScanDump, .ends => False
  | _, o => o = .ends

/-- A command that did not go out is not taken for sent. -/
def NoticesFailure (f : Sender) (s : Daemon) : Prop :=
  f.sends s = true → s.sendto ≤ 0 → control.Does f.handler s fun _ o => f.GivesUp o

theorem does_void {m : Handler Unit} {s : Daemon} {E : List Act → Outcome Unit Control → Prop}
    (h : control.Does m s E) :
    control.Does (m >>= fun _ => pure 0 : Handler Int) s fun _ o => ∃ ks, E ks o.void := by
  apply does_bind h
  · intro ks _ c hks s' hs'
    rw [does_pure, hs']
    exact ⟨ks, hks⟩
  · exact fun ks hks => ⟨ks, hks⟩

theorem does_on {m : Handler Unit} {s : Daemon} {E : List Act → Outcome Unit Control → Prop}
    (h : control.Does m s E) (hE : ∀ ks, ¬ E ks .ends) :
    control.Does (m >>= fun _ => pure 0 : Handler Int) s fun _ o => o ≠ .ends := by
  apply does_mono (does_void h)
  intro _ o hgoes hends
  obtain ⟨ks, hks⟩ := hgoes
  rw [hends] at hks
  exact hE ks hks

theorem handler_goes_on (f : Sender) (s : Daemon) :
    control.Does f.handler s fun _ o => ¬ f.GivesUp o := by
  cases f with
  | startScan freq =>
      apply does_mono (startScan_does freq s)
      intro _ o h hgives
      obtain ⟨_, ret, seq, rfl⟩ := h
      exact Control.startScan_scanstate _ _ _ hgives.2.1
  | triggerScanDump =>
      apply does_mono (does_void (triggerScanDump_does s))
      intro _ o h hgives
      obtain ⟨ks, _, seq, ho⟩ := h
      cases o with
      | goes ret c =>
          injection ho with _ hc
          rw [hc] at hgives
          cases hgives.1
      | ends => exact hgives
  | triggerAuthentication =>
      apply does_on (triggerAuthentication_does s)
      intro _ h
      obtain ⟨_, _, _, _, _, h⟩ := h
      cases h
  | triggerAssociation =>
      apply does_on (triggerAssociation_does s)
      intro _ h
      obtain ⟨_, _, _, _, _, _, h⟩ := h
      cases h
  | triggerDisconnect =>
      apply does_on (sendSetAuthstate_does _ _ s)
      intro _ h
      obtain ⟨_, _, h⟩ := h
      cases h
  | uploadPtk =>
      apply does_on (uploadPtk_does s)
      intro _ h
      cases h.2
  | uploadGtk =>
      apply does_on (uploadGtk_does s)
      intro _ h
      cases h.2

theorem unnoticed {f : Sender} {s : Daemon} (hsends : f.sends s = true) (hfails : s.sendto ≤ 0) :
    ¬ f.NoticesFailure s := by
  intro hnotices
  obtain ⟨_, o, hgives, hgoes⟩ := does_common (hnotices hsends hfails) (handler_goes_on f s)
  exact hgoes hgives

/-- No caller notices a failure: what should hold on one, that the state is as before
and the caller is told, holds exactly where there is none. This is so for every caller
and every state. -/
theorem failures_noticed_iff (f : Sender) (s : Daemon) :
    f.NoticesFailure s ↔ ¬ (f.sends s = true ∧ s.sendto ≤ 0) := by
  constructor
  · intro hnotices h
    exact unnoticed h.1 h.2 hnotices
  · intro h hsends hfails
    exact absurd ⟨hsends, hfails⟩ h

/-- The very first scan is refused by the socket, and the daemon waits for its results.
-/
theorem refused_scan_runs : ¬ (startScan 0).NoticesFailure { env := { nlSend := [-1] } } :=
  unnoticed (by decide) (by decide)

end Sender
end Wsupp
