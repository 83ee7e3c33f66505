import Wsupp.Control.Link

/-!
# Turns of a connection

Only AUTHENTICATE, ASSOCIATE and CONNECT notifications take a connection further.
`Turns` says what any other event can do with it: leave it where it is, or, where
there is none or it is given up, end it, start another one or ask for a disconnect.

An event gives a connection up if it is a request to that effect, a timeout, a
packet that cannot be dealt with, a command that failed or a device that went down;
the predicate is a function of the event and of the state it finds. Results about
connections over whole runs split on these few cases instead of on all events.
-/
namespace Wsupp
open Reactive

/-- Commands about the connection, and takeovers. The DISCONNECT that `quit` sends
is not one: nothing follows it. -/
def Act.mlme : Act → Bool
  | .nl (.authenticate ..) _ | .nl (.associate ..) _ | .nl .disconnect _ => true
  | .call .snapToDisabled => true
  | _ => false

/-- The event is a notification for the interface. -/
def Daemon.notices (s : Daemon) (cmd : Netlink.Code) : EventKind → Bool
  | .netlink (.gen msg) => msg.ifi = some s.ifindex && msg.cmd = cmd
  | _ => false

def Daemon.negotiates (s : Daemon) (k : EventKind) : Bool :=
  s.notices .authenticate k || s.notices .associate k || s.notices .connect k

def Daemon.busy (s : Daemon) : Bool :=
  s.authstate ≠ .idle && s.authstate ≠ .netdown && s.authstate ≠ .disconnecting

/-- The event gives up a connection, or what is left of one. -/
def Daemon.givesUp (s : Daemon) : EventKind → Bool
  | .connMsg _ msg => msg.cmd = .neutral && s.busy
  | .netlink (.err seq err) =>
      err = -ENETDOWN || s.failsAuth seq err && (s.busy || s.authstate = .disconnecting)
  | .frame sender data => s.frameAborts sender data && s.busy
  | .timer => s.authstate ≠ .connected && s.busy
  | .sigterm => s.busy
  | _ => false

/-- The event finds no connection, or ends it. -/
def Daemon.loose (s : Daemon) (k : EventKind) : Bool :=
  s.authstate = .idle || s.authstate = .netdown || s.givesUp k || s.notices .disconnect k

inductive Turns (s : Daemon) (k : EventKind) : List Act → Outcome Unit Control → Prop where
  | keeps {c} : c.authstate = s.authstate → Turns s k [] (.goes () c)
  | falls {c} : s.loose k = true → c.authstate = .idle ∨ c.authstate = .netdown →
      Turns s k [] (.goes () c)
  | starts (bssid freq ssid) (sent : Bool) {c} : s.loose k = true → c.authstate = .authenticating →
      Turns s k [.nl (.authenticate bssid freq ssid) sent] (.goes () c)
  | gives_up (sent : Bool) {c} : s.givesUp k = true → c.authstate = .disconnecting →
      Turns s k [.nl .disconnect sent] (.goes () c)
  | ends : Turns s k [] .ends

section Turns
variable {s : Daemon} {k : EventKind} {c : Control} {ks : List Act} {o : Outcome Unit Control}

theorem Daemon.loose_idle (h : s.authstate = .idle) : s.loose k = true := by simp [Daemon.loose, h]

theorem Daemon.loose_netdown (h : s.authstate = .netdown) : s.loose k = true := by
  simp [Daemon.loose, h]

theorem Daemon.loose_givesUp (h : s.givesUp k = true) : s.loose k = true := by simp [Daemon.loose, h]

theorem Daemon.busy_iff : s.busy = true ↔
    s.authstate ≠ .idle ∧ s.authstate ≠ .netdown ∧ s.authstate ≠ .disconnecting := by
  simp [Daemon.busy, and_assoc]

theorem Quits.mlme (h : Quits c ks) : ks.filter Act.mlme = [] := by
  cases h <;> rfl

/-- A reassessment where there is no connection, or where nothing is done. -/
theorem Reassess.turns (h : Reassess c ks o) (hl : c.authstate = .idle → s.loose k = true)
    (hk : c.authstate ≠ .idle → c.authstate = s.authstate) : Turns s k (ks.filter Act.mlme) o := by
  cases h with
  | stays _ =>
      by_cases hidle : c.authstate = .idle
      · exact .falls (hl hidle) (.inl hidle)
      · exact .keeps (hk hidle)
  | starts bssid freq ssid sent _ hr => exact .starts bssid freq ssid sent (hl hr.1) rfl
  | ends _ _ => exact .ends
  | gives_up _ hr => exact .falls (hl hr.1) (.inl hr.1)
  | waits _ _ hr => exact .falls (hl hr.1) (.inl hr.1)

theorem Abort.turns (h : Abort c ks o) (hc : c.authstate = s.authstate)
    (hg : s.busy = true → s.givesUp k = true) : Turns s k (ks.filter Act.mlme) o := by
  cases h with
  | disconnects sent h₁ h₂ h₃ =>
      rw [hc] at h₁ h₂ h₃
      exact .gives_up sent (hg (Daemon.busy_iff.mpr ⟨h₁, h₂, h₃⟩)) rfl
  | stays _ => exact .keeps hc
  | reassesses hidle h => exact h.turns (fun _ => Daemon.loose_idle (hc ▸ hidle)) (absurd hidle)

theorem HandleDisconnect.turns (h : HandleDisconnect c ks o) (hc : c.authstate = .idle)
    (hl : s.loose k = true) : Turns s k (ks.filter Act.mlme) o := by
  cases h with
  | exits _ => exact .falls hl (.inl hc)
  | rescans _ _ _ => exact .falls hl (.inl (by simpa using hc))
  | tries_other _ h => exact h.turns (fun _ => hl) (absurd hc)
  | gives_up _ => exact .falls hl (.inl hc)

theorem Act.mlme_link (a : Act) (h : a.mlme = true) : a.link = true := by
  cases a with
  | nl cmd sent => rfl
  | call c => cases c <;> first | rfl | cases h
  | _ => cases h

theorem Mute.mlme (h : Mute ks) : ks.filter Act.mlme = [] := by
  rw [List.filter_eq_nil_iff]
  intro a ha hm
  have hlink := a.mlme_link hm
  rw [h a ha] at hlink
  cases hlink

theorem FrameLink.turns {sender data : Bytes} (h : FrameLink s sender data ks o) :
    Turns s (.frame sender data) (ks.filter Act.mlme) o := by
  cases h with
  | aborts c pre ha hb hpre h =>
      rw [List.filter_append, hpre.mlme, List.nil_append]
      exact h.turns hb.authstate fun hbusy => by simp [Daemon.givesUp, ha, hbusy]
  | quits pre _ hpre hq =>
      rw [List.filter_append, hpre.mlme, hq.mlme]
      exact .ends
  | ends _ _ h => rw [h.mlme]; exact .ends
  | stays _ _ h hb => rw [h.mlme]; exact .keeps hb.authstate
  | connects _ _ h hb => rw [h.mlme]; exact .keeps hb.authstate

theorem TimerExpired.turns (h : TimerExpired s.toControl ks o) :
    Turns s .timer (ks.filter Act.mlme) o := by
  cases h with
  | exits _ _ => exact .keeps rfl
  | idles hdown _ => exact .falls (Daemon.loose_netdown hdown) (.inl rfl)
  | bg_scans _ _ => exact .keeps (by simp)
  | aborts _ _ hconn h => exact h.turns rfl fun hbusy => by simp [Daemon.givesUp, hconn, hbusy]
  | fg_scans _ _ _ => exact .keeps (by simp)

theorem RfkillEffect.turns {re : RfkillEvent} (h : RfkillEffect s re ks o) :
    Turns s (.rfkill re) (ks.filter Act.mlme) o := by
  cases h with
  | other _ => exact .keeps rfl
  | kills _ _ => exact .keeps rfl
  | quits _ _ _ hq => rw [hq.mlme]; exact .ends
  | revives _ _ _ _ => exact .keeps rfl
  | rescans _ _ _ _ _ hdown _ => exact .falls (Daemon.loose_netdown hdown) (.inl (by simp))
  | reassesses _ _ _ hdown _ h =>
      exact h.turns (fun _ => Daemon.loose_netdown hdown) (absurd rfl)

theorem Xshutdown.turns (h : Xshutdown s.toControl ks o) : Turns s .sigterm (ks.filter Act.mlme) o := by
  cases h with
  | second _ hq => rw [hq.mlme]; exact .ends
  | exits _ _ _ => exact .keeps rfl
  | requests sent _ _ h₁ h₂ h₃ => exact .gives_up sent (Daemon.busy_iff.mpr ⟨h₁, h₂, h₃⟩) rfl

theorem Cntrl.CmdEffect.turns {cn : ℕ} {msg : Cntrl.Msg} (h : Cntrl.CmdEffect s.toControl msg ks o) :
    Turns s (.connMsg cn msg) (ks.filter Act.mlme) o := by
  unfold Cntrl.CmdEffect at h
  cases hcmd : msg.cmd <;> simp only [hcmd] at h
  case status => obtain ⟨rfl, rfl⟩ := h; exact .keeps rfl
  case device => obtain ⟨rfl, rfl⟩ := h; exact .keeps rfl
  case other => obtain ⟨rfl, rfl⟩ := h; exact .keeps rfl
  case scan => obtain ⟨rfl, seq, rfl⟩ := h; exact .keeps (by simp)
  case neutral =>
    cases h with
    | refuses _ => exact .keeps rfl
    | disconnects sent h₁ h₂ h₃ =>
        have hbusy : s.busy = true := Daemon.busy_iff.mpr ⟨h₁, h₂, h₃⟩
        exact .gives_up sent (by simp [Daemon.givesUp, hcmd, hbusy]) rfl
  case connect =>
    cases h with
    | refuses => exact .keeps rfl
    | accepts hr h => exact h.turns (fun _ => Daemon.loose_idle hr.1) (absurd hr.1)
  case forget =>
    cases h with
    | goes => exact .keeps rfl
    | ends => exact .ends

theorem Netlink.GenlDone.turns (h : Netlink.GenlDone s ks o) :
    Turns s (.netlink .done) (ks.filter Act.mlme) o := by
  cases h with
  | no_dump _ => exact .keeps rfl
  | reconnects _ _ _ h =>
      cases h with
      | busy _ => exact .keeps rfl
      | starts bssid freq ssid sent hidle _ _ =>
          exact .starts bssid freq ssid sent (Daemon.loose_idle hidle) rfl
      | ends _ _ _ => exact .ends
  | misses _ _ _ h => exact h.turns Daemon.loose_idle fun _ => rfl
  | reassesses _ _ _ h => exact h.turns Daemon.loose_idle fun _ => rfl
  | rests _ _ _ => exact .keeps rfl

theorem Netlink.GenlError.turns {seq : ℕ} {err : Int} (h : Netlink.GenlError s.toControl seq err ks o) :
    Turns s (.netlink (.err seq err)) (ks.filter Act.mlme) o := by
  have hdown (h : err = -ENETDOWN) : s.loose (.netlink (.err seq err)) = true :=
    Daemon.loose_givesUp (by simp [Daemon.givesUp, h])
  have hfails (h₁ : err ≠ -ENETDOWN) (h₂ : seq ≠ s.scanseq)
      (h₃ : s.busy = true ∨ s.authstate = .disconnecting) :
      s.givesUp (.netlink (.err seq err)) = true := by
    rcases h₃ with h₃ | h₃ <;> simp [Daemon.givesUp, Daemon.failsAuth, h₁, h₂, h₃]
  cases h with
  | killed h _ => exact .falls (hdown h) (.inl rfl)
  | netdown h _ => exact .falls (hdown h) (.inr rfl)
  | scan_ack _ _ => exact .keeps rfl
  | scan_fails _ _ _ => exact .keeps rfl
  | idle _ _ _ => exact .keeps rfl
  | disconnect_fails h₁ h₂ h₃ h =>
      exact h.turns (fun _ => Daemon.loose_givesUp (hfails h₁ h₂ (.inr h₃))) (absurd rfl)
  | rescans freq seq' h₂ ha herr =>
      have hbusy : s.busy = true := Daemon.busy_iff.mpr (by simp [ha])
      refine .falls (Daemon.loose_givesUp (hfails ?_ h₂ (.inl hbusy))) (.inl (by simp))
      rw [herr]
      decide
  | aborts h₁ h₂ _ _ _ h => exact h.turns rfl fun hbusy => hfails h₁ h₂ (.inl hbusy)

theorem Netlink.GenEffect.turns {msg : Netlink.Gen} (hifi : msg.ifi = some s.ifindex)
    (hk : s.negotiates (.netlink (.gen msg)) = false) (h : Netlink.GenEffect s msg ks o) :
    Turns s (.netlink (.gen msg)) (ks.filter Act.mlme) o := by
  unfold Netlink.GenEffect at h
  cases hcmd : msg.cmd <;> simp only [hcmd] at h
  case triggerScan => obtain ⟨rfl, rfl⟩ := h; exact .keeps rfl
  case other => obtain ⟨rfl, rfl⟩ := h; exact .keeps rfl
  case newScanResults => cases h <;> exact .keeps rfl
  case scanAborted => cases h <;> exact .keeps rfl
  case disconnect =>
    cases h with
    | idle _ => exact .keeps rfl
    | disconnects _ h =>
        exact h.turns rfl (by simp [Daemon.loose, Daemon.notices, hifi, hcmd])
  all_goals simp [Daemon.negotiates, Daemon.notices, hifi, hcmd] at hk

theorem Daemon.negotiates_iff : s.negotiates k = true ↔ ∃ msg, k = .netlink (.gen msg) ∧
    msg.ifi = some s.ifindex ∧ (msg.cmd = .authenticate ∨ msg.cmd = .associate ∨ msg.cmd = .connect) := by
  unfold negotiates notices
  split
  · next msg => simp [← and_or_left, or_assoc]
  · next h =>
      refine iff_of_false (by simp) ?_
      rintro ⟨msg, rfl, -⟩
      exact h msg rfl

/-- Whatever is not one of the three notifications is one of these turns. -/
theorem EventKind.turns (hk : s.negotiates k = false) (h : k.effect s ks o) :
    Turns s k (ks.filter Act.mlme) o := by
  cases k with
  | netlink msg =>
      cases msg with
      | done => exact Netlink.GenlDone.turns h
      | err seq err => exact Netlink.GenlError.turns h
      | gen msg =>
          simp only [EventKind.effect, Netlink.MsgEffect] at h
          split at h
          · next hifi => exact Netlink.GenEffect.turns hifi hk h
          · obtain ⟨rfl, rfl⟩ := h
            exact .keeps rfl
      | other => obtain ⟨rfl, rfl⟩ := h; exact .keeps rfl
  | frame sender data => exact (Frame.link h).turns
  | connMsg cn msg => exact Cntrl.CmdEffect.turns h
  | rfkill re => exact RfkillEffect.turns h
  | timer => exact TimerExpired.turns h
  | sigterm => exact Xshutdown.turns h
  | netlinkLost | controlLost | pollError =>
      obtain ⟨rfl, hq⟩ := h
      rw [hq.mlme]
      exact .ends
  | turn =>
      obtain ⟨rfl, rfl⟩ := h
      split
      · exact .ends
      · exact .keeps rfl
  | connEnd | connHup | frameError | rawsockLost | accept | rfkillLost | reap =>
      obtain ⟨rfl, rfl⟩ := h
      exact .keeps rfl

end Turns

end Wsupp
