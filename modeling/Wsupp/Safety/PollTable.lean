import Wsupp.Control.Descriptors
import Wsupp.Control.Step

/-!
# The poll table

`pfds` is rebuilt before `ppoll` whenever `pollset` says so, and read once `ppoll`
is back. Its entries go with the connections throughout a turn; the last of them is
outside the array once all slots for connections are in use.

The table is kept beside the daemon, as the loop rebuilds it. The invariant says
that it matches the connections unless a rebuild is due, so each descriptor that is
looked at is the one that was polled. The accesses are inside the array in every
turn if and only if no table is built with ten clients.
-/
namespace Wsupp
open Reactive Prog View

/-- The length of `pfds`. -/
def PFDS : ℕ := 3 + NCONNS

/-- What an entry of `pfds` was set up for. -/
inductive Polled where
  | netlink
  | rawsock (isOpen : Bool)
  | ctrlfd
  | rfkill (isOpen : Bool)
  | conn (fd : Int)
deriving DecidableEq, Repr

/-- `set_pollfd` on the descriptor of a connection. -/
def setPollfd (fd : Int) : Polled := .conn (if 0 < fd then fd else -1)

/-- `pollset`, the entries written to `pfds`, one after the other, and `npfds`. Entries
from earlier turns may still stand behind them. -/
structure Polls where
  pollset : Bool
  pfds : List Polled
  npfds : ℕ
deriving DecidableEq, Repr

/-- `update_pollfds`. -/
def updatePollfds (s : Daemon) : Polls where
  pollset := true
  pfds := [.netlink, .rawsock s.rawsock, .ctrlfd, .rfkill s.rfkill] ++
    (List.range s.nconns).map fun i => setPollfd (s.conns.getD i {}).fd
  npfds := 4 + s.nconns

/-- The entries `check_polled_fds` looks at for the connections. -/
def readPollfds (s : Daemon) : List ℕ := (List.range s.nconns).map (4 + ·)

namespace Polls

/-- An event handled in `check_polled_fds` has the table rebuilt. At the end of a turn
that goes on, the next one begins with `update_pollfds` if it is due. -/
def next (x : System) (e : Event) (p : Polls) : Polls :=
  match e.kind with
  | .turn => if p.pollset then p else updatePollfds (x.step e).1.toDaemon
  | .timer | .sigterm | .pollError | .reap .. => p
  | .rawsockLost => { p with pollset := false, pfds := p.pfds.set 1 (.rawsock false) }
  | .rfkillLost => { p with pollset := false, pfds := p.pfds.set 3 (.rfkill false) }
  | _ => { p with pollset := false }

/-- What is written, read and polled is inside the array. -/
def Fits (p : Polls) (s : Daemon) : Prop :=
  (∀ i < p.pfds.length, i < PFDS) ∧ (∀ i ∈ readPollfds s, i < PFDS) ∧ p.npfds ≤ PFDS

instance (p : Polls) (s : Daemon) : Decidable (p.Fits s) :=
  inferInstanceAs (Decidable ((∀ i < p.pfds.length, i < PFDS) ∧ (∀ i ∈ readPollfds s, i < PFDS) ∧ p.npfds ≤ PFDS))

/-- The entries are those of the connections that are still there. -/
structure Matches (p : Polls) (s : Daemon) : Prop where
  npfds : p.npfds = 4 + s.nconns
  length : p.pfds.length = 4 + s.nconns
  conn : ∀ cn < s.nconns, 0 < (s.conns.getD cn {}).fd → p.pfds[4 + cn]? = some (.conn (s.conns.getD cn {}).fd)

theorem matches_updatePollfds (s : Daemon) : (updatePollfds s).Matches s where
  npfds := rfl
  length := by
    simp only [updatePollfds, List.length_append, List.length_map, List.length_range]
    rfl
  conn := by
    intro cn hcn hfd
    have hlen : [Polled.netlink, .rawsock s.rawsock, .ctrlfd, .rfkill s.rfkill].length ≤ 4 + cn := Nat.le_add_right 4 cn
    unfold updatePollfds
    rw [List.getElem?_append_right hlen, List.length_cons, List.length_cons, List.length_cons, List.length_cons,
      List.length_nil, Nat.add_sub_cancel_left, List.getElem?_map, List.getElem?_range hcn, Option.map_some,
      setPollfd, if_pos hfd]

theorem Matches.fits_iff {p : Polls} {s : Daemon} (h : p.Matches s) :
    p.Fits s ↔ s.nconns < NCONNS := by
  have hsize : PFDS = 3 + NCONNS := rfl
  constructor
  · intro hfits
    have hnpfds := hfits.2.2
    rw [h.npfds] at hnpfds
    omega
  · intro hlt
    refine ⟨?_, ?_, ?_⟩
    · intro i hi
      rw [h.length] at hi
      omega
    · intro i hi
      obtain ⟨j, hj, rfl⟩ := List.mem_map.mp hi
      have hj := List.mem_range.mp hj
      omega
    · rw [h.npfds]
      omega

/-- Entries and descriptors that stay as they are still go together. -/
theorem Matches.frame {p p' : Polls} {s s' : Daemon} (h : p.Matches s)
    (hpfds : p'.npfds = p.npfds ∧ p'.pfds.length = p.pfds.length ∧ ∀ cn, p'.pfds[4 + cn]? = p.pfds[4 + cn]?)
    (hcount : s'.nconns = s.nconns)
    (hfd : ∀ cn, 0 < (s'.conns.getD cn {}).fd → (s'.conns.getD cn {}).fd = (s.conns.getD cn {}).fd) :
    p'.Matches s' where
  npfds := by rw [hpfds.1, hcount, h.npfds]
  length := by rw [hpfds.2.1, hcount, h.length]
  conn := by
    intro cn hcn hpos
    rw [hcount] at hcn
    have hsame := hfd cn hpos
    rw [hsame] at hpos ⊢
    rw [hpfds.2.2]
    exact h.conn cn hcn hpos

end Polls

/-- The daemon with its poll table and the flag `pollset`, which an event changes as
`Polls.next` says. -/
def polling : Machine (System × Polls) Event Act := supplicant.record fun x e _ => Polls.next x e

/-- `ppoll` is about to be called, or waits. -/
def System.polls (x : System) : Prop := x.halted = false ∧ x.turn.stage = 0

instance (x : System) : Decidable x.polls := inferInstanceAs (Decidable (x.halted = false ∧ x.turn.stage = 0))

def EventKind.conn? : EventKind → Option ℕ
  | .connMsg cn _ | .connEnd cn _ | .connHup cn => some cn
  | _ => none

/-- The event comes from the entry its connection was polled in. -/
def PolledHere (x : System × Polls) (e : Event) : Prop :=
  ∀ cn ∈ e.kind.conn?, x.2.pfds[4 + cn]? = some (.conn (x.1.conns.getD cn {}).fd)

/-- The count is kept, the table is in the array whenever `ppoll` is called, and what it
reports is handled for the right connection. -/
def PollsInside (x : System × Polls) (es : List Event) : Prop :=
  polling.Always (fun y => y.1.halted = false → y.1.nconns ≤ NCONNS) x es ∧
    polling.Always (fun y => y.1.polls → y.2.Fits y.1.toDaemon) x es ∧ polling.Every PolledHere x es

theorem getD_map_fd (conns : List Conn) (cn : ℕ) :
    (conns.map Conn.fd).getD cn 0 = (conns.getD cn {}).fd := by
  rw [List.getD_eq_getElem?_getD, List.getD_eq_getElem?_getD, List.getElem?_map]
  cases conns[cn]? <;> rfl

/-- A step that does not end the daemon leaves what its handler leaves. -/
theorem System.step_returns {κ : Type} {V : View Daemon Act κ} {x : System} {e : Event} {P : κ → Prop}
    (h : V.Does e.kind.handler (x.before e) fun _ o => o.Returns P) (hrun : (x.step e).1.halted = false) :
    P (V.state (x.step e).1.toDaemon) := by
  have hdoes := System.step_does h
  unfold System.seen at hdoes
  rw [if_neg (by rw [hrun]; decide)] at hdoes
  exact hdoes

/-- Events that are not about a connection leave the descriptors alone. -/
theorem System.step_descriptors {x : System} {e : Event} (h : e.kind.connects = false)
    (hrun : (x.step e).1.halted = false) :
    (x.step e).1.nconns = x.nconns ∧
      ∀ cn, ((x.step e).1.conns.getD cn {}).fd = (x.conns.getD cn {}).fd := by
  have hmoves := does_mono (EventKind.descriptors_handler h (x.before e)) fun _ _ h => h.2
  have hstay : descriptors.state (x.step e).1.toDaemon = descriptors.state (x.before e) :=
    stays_eq (System.step_returns hmoves hrun)
  obtain ⟨hcount, hfds⟩ := Prod.mk.inj hstay
  refine ⟨hcount, ?_⟩
  intro cn
  rw [← getD_map_fd, ← getD_map_fd, hfds]
  rfl

/-- A connection accepted gets a slot within the count, if at all. -/
theorem Cntrl.acceptConn_does (cfd : Int) {s : Daemon} (h : s.nconns ≤ NCONNS) :
    descriptors.Does (acceptConn cfd) s fun _ o => o.Returns fun c => c.1 ≤ NCONNS := by
  unfold acceptConn
  rw [does_read_bind]
  split
  · next i n hgrab => exact grabSlot_le h hgrab
  · exact h

def slots : View Daemon Act (List Conn × ℕ) where
  state s := (s.conns, s.nconns)
  shows _ := false

theorem System.step_connHup {x : System} {e : Event} {cn : ℕ} (h : e.kind = .connHup cn)
    (hrun : (x.step e).1.halted = false) :
    (x.step e).1.nconns = x.nconns ∧ (x.step e).1.conns = x.conns.set cn {} := by
  have hdoes : slots.Does e.kind.handler (x.before e) fun _ o =>
      o.Returns fun c => c.2 = x.nconns ∧ c.1 = x.conns.set cn {} := by
    rw [h]
    exact ⟨rfl, rfl⟩
  exact System.step_returns hdoes hrun

theorem System.step_turn {x : System} {e : Event} (hrun : (x.step e).1.halted = false) :
    (x.step e).1.turn = e.kind.next x.turn (x.step e).1.toDaemon := by
  unfold System.step at hrun ⊢
  cases hm : e.kind.handler (x.before e) with
  | ok a s out => rfl
  | halt s out =>
      rw [hm] at hrun
      cases hrun

/-- Where connections are accepted the table may stop to match, and then the flag asks
for another one. Before that it matches, or the flag is set already. -/
structure PollsInv (x : System × Polls) : Prop where
  count : x.1.nconns ≤ NCONNS
  table : x.2.pollset = true ∨ x.1.turn.stage ≤ 24 → x.2.Matches x.1.toDaemon

theorem EventKind.stage_le {k : EventKind} {turn : Turn} {s : Daemon} (hk : k ≠ .turn) :
    turn.stage ≤ (k.next turn s).stage := by
  cases k with
  | turn => exact absurd rfl hk
  | reap pid exited signaled => exact le_rfl
  | _ => exact le_max_left _ _

/-- Where the connections are left alone, so is the match. -/
theorem PollsInv.frame {x : System × Polls} (h : PollsInv x) {e : Event} (hk : e.kind ≠ .turn)
    (hconnects : e.kind.connects = false) (hrun : (x.1.step e).1.halted = false)
    (hset : (Polls.next x.1 e x.2).pollset = true → x.2.pollset = true)
    (hpfds : (Polls.next x.1 e x.2).npfds = x.2.npfds ∧
      (Polls.next x.1 e x.2).pfds.length = x.2.pfds.length ∧
      ∀ cn, (Polls.next x.1 e x.2).pfds[4 + cn]? = x.2.pfds[4 + cn]?) :
    PollsInv ((x.1.step e).1, Polls.next x.1 e x.2) := by
  obtain ⟨hcount, hfds⟩ := System.step_descriptors hconnects hrun
  constructor
  · exact hcount.le.trans h.count
  · intro hdue
    have hold : x.2.pollset = true ∨ x.1.turn.stage ≤ 24 := by
      refine hdue.imp hset fun hstage => ?_
      rw [System.step_turn hrun] at hstage
      exact (EventKind.stage_le hk).trans hstage
    exact (h.table hold).frame hpfds hcount fun cn _ => hfds cn

section Step
variable {x : System × Polls} {e : Event} (hinv : PollsInv x) (hrun : (x.1.step e).1.halted = false)
include hinv hrun

/-- The turn ends with a table that is up to date. -/
theorem turn_pollsInv (hkind : e.kind = .turn) : PollsInv (polling.step x e).1 := by
  obtain ⟨hcount, hfds⟩ := System.step_descriptors (by rw [hkind]; rfl) hrun
  change PollsInv ((x.1.step e).1, Polls.next x.1 e x.2)
  refine ⟨hcount.le.trans hinv.count, fun _ => ?_⟩
  unfold Polls.next
  rw [hkind]
  dsimp only
  split
  · next hset => exact (hinv.table (.inl hset)).frame ⟨rfl, rfl, fun _ => rfl⟩ hcount fun cn _ => hfds cn
  · exact Polls.matches_updatePollfds _

/-- With a connection more the table is out of date, and is not used before it is rebuilt. -/
theorem accept_pollsInv {cfd : Int} (hkind : e.kind = .accept cfd) : PollsInv (polling.step x e).1 := by
  change PollsInv ((x.1.step e).1, Polls.next x.1 e x.2)
  constructor
  · have hdoes : descriptors.Does e.kind.handler (x.1.before e) fun _ o => o.Returns fun c => c.1 ≤ NCONNS := by
      rw [hkind]
      exact Cntrl.acceptConn_does cfd hinv.count
    exact System.step_returns hdoes hrun
  · intro hdue
    have hstage : 25 ≤ (x.1.step e).1.turn.stage := by
      rw [System.step_turn hrun, hkind]
      exact le_max_right _ _
    unfold Polls.next at hdue
    rw [hkind] at hdue
    dsimp only at hdue
    have hset := hdue.resolve_right (by omega)
    cases hset

/-- The entry of a connection that is closed stays, and is not looked at again. -/
theorem connHup_pollsInv {cn : ℕ} (he : x.1.Enabled e) (hkind : e.kind = .connHup cn) :
    PollsInv (polling.step x e).1 := by
  obtain ⟨hcount, hconns⟩ := System.step_connHup hkind hrun
  change PollsInv ((x.1.step e).1, Polls.next x.1 e x.2)
  refine ⟨hcount.le.trans hinv.count, fun _ => ?_⟩
  have hold : x.2.Matches x.1.toDaemon := by
    have hstage := he.2.1
    have hpolled := he.2.2
    rw [hkind] at hstage hpolled
    have hcn : cn < x.1.nconns := by
      have hboth := Bool.and_eq_true_iff.mp hpolled
      exact of_decide_eq_true hboth.1
    have hmax : x.1.nconns ≤ 10 := hinv.count
    apply hinv.table
    right
    have hstage : x.1.turn.stage ≤ 2 * cn + 2 := hstage
    omega
  refine hold.frame ?_ hcount ?_
  · unfold Polls.next
    rw [hkind]
    exact ⟨rfl, rfl, fun _ => rfl⟩
  · intro i hpos
    rw [hconns, List.getD_eq_getElem?_getD] at hpos ⊢
    rw [List.getD_eq_getElem?_getD]
    by_cases hi : cn = i
    · subst hi
      rw [List.getElem?_set_self'] at hpos
      cases hget : x.1.conns[cn]? <;> rw [hget] at hpos <;> cases hpos
    · rw [List.getElem?_set_ne hi]

end Step

theorem step_pollsInv {x : System × Polls} {e : Event} (hx : x.1.halted = false → PollsInv x)
    (he : polling.enabled x e) (hrun : (polling.step x e).1.1.halted = false) :
    PollsInv (polling.step x e).1 := by
  have henabled : x.1.Enabled e := he
  have hinv := hx henabled.1
  have hrun : (x.1.step e).1.halted = false := hrun
  cases hkind : e.kind with
  | turn => exact turn_pollsInv hinv hrun hkind
  | accept cfd => exact accept_pollsInv hinv hrun hkind
  | connHup cn => exact connHup_pollsInv hinv hrun henabled hkind
  | rawsockLost | rfkillLost =>
      apply hinv.frame
      · rw [hkind]
        simp
      · rw [hkind]
        rfl
      · exact hrun
      · unfold Polls.next
        rw [hkind]
        simp
      · unfold Polls.next
        rw [hkind]
        exact ⟨rfl, List.length_set, fun cn => List.getElem?_set_ne (by omega)⟩
  | _ =>
      apply hinv.frame
      · rw [hkind]
        simp
      · rw [hkind]
        rfl
      · exact hrun
      · unfold Polls.next
        rw [hkind]
        simp
      · unfold Polls.next
        rw [hkind]
        exact ⟨rfl, rfl, fun _ => rfl⟩

theorem System.Initial.pollsInv {x : System} (h : x.Initial) (hrun : x.halted = false) :
    PollsInv (x, updatePollfds x.toDaemon) := by
  refine ⟨?_, fun _ => Polls.matches_updatePollfds _⟩
  obtain ⟨smac, ifindex, psks, file, env, -, rfl⟩ := h
  have hboot := descriptors_boot file (.fresh smac ifindex psks env)
  unfold MovesFrom View.Does wp at hboot
  unfold System.started at hrun ⊢
  cases hb : boot file (.fresh smac ifindex psks env) with
  | ok a s out =>
      rw [hb] at hboot
      have hstay : descriptors.state s = descriptors.state (.fresh smac ifindex psks env) := stays_eq hboot.2
      have hcount : s.nconns = 0 := congrArg Prod.fst hstay
      exact hcount.le.trans (Nat.zero_le _)
  | halt s out =>
      rw [hb] at hrun
      cases hrun

/-- An event about a connection finds it in the entry it was polled in. -/
theorem PollsInv.polledHere {x : System × Polls} (h : PollsInv x) {e : Event} (he : x.1.Enabled e) :
    PolledHere x e := by
  intro cn hcn
  have hmax : x.1.nconns ≤ 10 := h.count
  obtain ⟨-, hstage, hpolled⟩ := he
  have hopen : cn < x.1.nconns ∧ 0 < (x.1.conns.getD cn {}).fd ∧ x.1.turn.stage ≤ 2 * cn + 2 := by
    cases hkind : e.kind with
    | connMsg n msg | connEnd n fault | connHup n =>
        rw [hkind] at hcn hstage hpolled
        cases hcn
        simp only [EventKind.polled, Bool.and_eq_true, decide_eq_true_eq] at hpolled
        simp only [EventKind.stages] at hstage
        exact ⟨hpolled.1, hpolled.2, by omega⟩
    | _ =>
        rw [hkind] at hcn
        cases hcn
  exact (h.table (.inr (by omega))).conn cn hopen.1 hopen.2.1

/-- Over any run, the poll table stays inside the array exactly if `ppoll` is never
called with all slots for connections in use. The entries are counted as the loop
rebuilds them, from the connections of that moment. -/
theorem polls_inside_iff {x : System} (hx : x.Initial) {es : List Event} (hv : supplicant.Valid x es) :
    PollsInside (x, updatePollfds x.toDaemon) es ↔
      supplicant.Always (fun y => y.polls → y.nconns < NCONNS) x es := by
  have hv : polling.Valid (x, updatePollfds x.toDaemon) es := (Machine.record_valid ..).mpr hv
  have hinv : polling.Always (fun y => y.1.halted = false → PollsInv y) (x, updatePollfds x.toDaemon) es :=
    Machine.always_of_step (fun y e hy he hrun => step_pollsInv hy he hrun) hx.pollsInv hv
  have hcount := hinv.mono fun y hy hrun => (hy hrun).count
  have hhere : polling.Every PolledHere (x, updatePollfds x.toDaemon) es :=
    Machine.every_of_step (fun y e hy he hrun => step_pollsInv hy he hrun)
      (fun y e hy he => (hy he.1).polledHere he) hx.pollsInv hv
  rw [← Machine.record_always (fun x e _ => Polls.next x e) x (updatePollfds x.toDaemon)]
  have hfits := hinv.congr (P := fun y => y.1.polls → y.2.Fits y.1.toDaemon)
    (Q := fun y => y.1.polls → y.1.nconns < NCONNS) fun y hy => by
      refine imp_congr_right fun hpolls => ?_
      have hmatches := (hy hpolls.1).table (.inr (by rw [hpolls.2]; decide))
      exact hmatches.fits_iff
  constructor
  · intro h
    exact hfits.mp h.2.1
  · intro h
    exact ⟨hcount, hfits.mpr h, hhere⟩

namespace Sample

/-- Clients that connect in one turn, each with the descriptor it gets. -/
def clients (n : ℕ) : List Event := (List.range n).map fun i => event (.accept (5 + i))

end Sample

theorem nine_clients_inside :
    PollsInside (Sample.start, updatePollfds Sample.start.toDaemon) (Sample.clients 9 ++ [Sample.event .turn]) ↔
      supplicant.Always (fun y => y.polls → y.nconns < NCONNS) Sample.start
        (Sample.clients 9 ++ [Sample.event .turn]) :=
  polls_inside_iff Sample.start_initial (by decide +kernel)

/-- Ten clients connect one after the other. The next rebuild of the table writes its
fourteenth entry behind the array. -/
theorem ten_clients_outside : Sample.start.Initial ∧
    supplicant.Valid Sample.start (Sample.clients 10 ++ [Sample.event .turn]) ∧
    ¬ PollsInside (Sample.start, updatePollfds Sample.start.toDaemon)
      (Sample.clients 10 ++ [Sample.event .turn]) := by
  refine ⟨Sample.start_initial, by decide +kernel, fun h => ?_⟩
  have hfits := h.2.1
  revert hfits
  decide +kernel

end Wsupp
