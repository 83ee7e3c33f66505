import Wsupp.Nl.Receive

/-!
# Netlink messages out of a stream

Round after round of `handle_netlink`: whatever the pieces the messages come in,
they are handed over one after the other, and the offsets of the buffer stay in
order. What is kept between two rounds is always less than one message.

The buffer is one whose offsets are in order, as it is in the beginning and after
each round. Each chunk has to fit what is left of it, which it does if no message is
longer than the buffer; in return there is always room left. Every state in which a
message is handled is in order too.
-/
namespace Wsupp.Nl
open Wire

/-- Each chunk fits the part of the buffer that is free when it comes. -/
def Fits : NetlinkRx → List Bytes → Prop
  | _, [] => True
  | nl, c :: cs => c ≠ [] ∧ c.length ≤ nl.rxlen - nl.rxend ∧
      ∀ round ∈ handleNetlink nl (.datagram c), Fits round.shifted cs

instance decidableFits : (nl : NetlinkRx) → (cs : List Bytes) → Decidable (Fits nl cs)
  | _, [] => .isTrue trivial
  | nl, c :: cs =>
      have (round : Round) : Decidable (Fits round.shifted cs) := decidableFits round.shifted cs
      inferInstanceAs (Decidable (c ≠ [] ∧ c.length ≤ nl.rxlen - nl.rxend ∧
        ∀ round ∈ handleNetlink nl (.datagram c), Fits round.shifted cs))

section Rounds
variable {nl : NetlinkRx} {c : Bytes} {cs ms : List Bytes} {n : ℕ}

theorem drain_cuts (h : InOrder nl) (hn : nl.unread.length < n) :
    ∃ handled last, drain n nl = some (handled, last) ∧
      nlmsgs.Cuts nl.unread (handled.map NetlinkRx.message) last.unread ∧
      (∀ st ∈ handled, InOrder st) ∧ InOrder last ∧ last.rxlen = nl.rxlen := by
  induction n generalizing nl with
  | zero => exact absurd hn (Nat.not_lt_zero _)
  | succ n ih =>
      rw [drain]
      cases hget : nlGetNowait nl with
      | none =>
          have hready := h.nlGetNowait_none.mp hget
          exact ⟨[], nl, rfl, .done _ hready, List.forall_mem_nil _, h, rfl⟩
      | some next =>
          obtain ⟨hready, hnext, hrxlen, hmessage, hunread⟩ := h.nlGetNowait_some hget
          have hpos : 0 < Nlmsg.len nl.unread := hready.2.1
          have hlen : Nlmsg.len nl.unread ≤ nl.unread.length := hready.2.2
          have hless : next.unread.length < n := by
            rw [hunread, List.length_drop]
            omega
          obtain ⟨handled, last, hdrain, hcuts, hhandled, hlast, hsame⟩ := ih hnext hless
          refine ⟨next :: handled, last, ?_, ?_, ?_, hlast, hsame.trans hrxlen⟩
          · dsimp only
            rw [hdrain]
            rfl
          · rw [hunread] at hcuts
            rw [List.map_cons, hmessage]
            exact .frame _ _ _ hready hcuts
          · exact List.forall_mem_cons.mpr ⟨hnext, hhandled⟩

theorem handleNetlink_cuts (h : InOrder nl) (hc : c ≠ []) (hfits : c.length ≤ nl.rxlen - nl.rxend) :
    ∃ round, handleNetlink nl (.datagram c) = some round ∧
      nlmsgs.Cuts (nl.unread ++ c) round.messages round.shifted.unread ∧
      (∀ st ∈ round.states, InOrder st) ∧
      round.shifted.rxlen = nl.rxlen ∧ round.shifted.rxend = round.shifted.unread.length := by
  obtain ⟨received, hrecv, hreceived, hrxlen, hunread⟩ := h.nlRecvNowait hc hfits
  have henough : received.unread.length < received.rxend + 1 := by
    rw [hreceived.length_unread]
    omega
  obtain ⟨handled, last, hdrain, hcuts, hhandled, hlast, hsame⟩ := drain_cuts hreceived henough
  obtain ⟨hshifted, hroom, hkept, hrxend⟩ := hlast.nlShiftRxbuf
  rw [hunread] at hcuts
  refine ⟨⟨received, handled, nlShiftRxbuf last⟩, ?_, ?_, ?_, ?_, ?_⟩
  · have hok : ¬(c.length : Int) < 0 := by omega
    unfold handleNetlink
    rw [hrecv]
    dsimp only
    rw [if_neg hok, hdrain]
    rfl
  · rw [hkept]
    exact hcuts
  · intro st hst
    cases List.mem_append.mp hst with
    | inl hmem => exact List.forall_mem_cons.mpr ⟨hreceived, hhandled⟩ st hmem
    | inr hmem =>
        rw [List.mem_singleton.mp hmem]
        exact hshifted
  · exact hroom.trans (hsame.trans hrxlen)
  · rw [hkept]
    exact hrxend

theorem rounds_receives (h : InOrder nl) (hfits : Fits nl cs) :
    ∃ rs, rounds nl (cs.map Recv.datagram) = some rs ∧
      nlmsgs.Receives nl.unread cs (rs.map fun round => (round.messages, round.shifted.unread)) ∧
      (∀ round ∈ rs, ∀ st ∈ round.states, InOrder st) ∧
      ∀ round ∈ rs, 0 < nl.rxlen ∧ round.shifted.rxlen = nl.rxlen ∧
        round.shifted.rxend = round.shifted.unread.length := by
  induction cs generalizing nl with
  | nil => exact ⟨[], rfl, .done _, List.forall_mem_nil _, List.forall_mem_nil _⟩
  | cons c cs ih =>
      obtain ⟨hc, hroom, hrest⟩ := hfits
      obtain ⟨round, hround, hcuts, hstates, hrxlen, hrxend⟩ := handleNetlink_cuts h hc hroom
      have hshifted : InOrder round.shifted := hstates _ (List.mem_append_right _ List.mem_cons_self)
      obtain ⟨rs, hrs, hreceives, hall, hkept⟩ := ih hshifted (hrest round hround)
      refine ⟨round :: rs, ?_, .piece _ _ _ _ _ _ hcuts hreceives, ?_, ?_⟩
      · rw [List.map_cons, rounds, hround, Option.bind_some, hrs]
        rfl
      · exact List.forall_mem_cons.mpr ⟨hstates, hall⟩
      · have hsome := List.length_pos_of_ne_nil hc
        have hpos : 0 < nl.rxlen := by omega
        refine List.forall_mem_cons.mpr ⟨⟨hpos, hrxlen, hrxend⟩, ?_⟩
        intro other hother
        obtain ⟨-, hsame, hend⟩ := hkept other hother
        exact ⟨hpos, hsame.trans hrxlen, hend⟩

end Rounds

/-- On a buffer with its offsets in order, as a fresh one has them and as each round leaves
them: the messages of the stream are handed over one after the other, however they are cut,
and the offsets stay in order. There is always room left for the next chunk. -/
theorem netlink_stream {nl : NetlinkRx} (h : InOrder nl) {ms cs : List Bytes}
    (hms : ∀ m ∈ ms, nlmsgs.Whole m ∧ m.length ≤ nl.rxlen) (hstream : nl.unread ++ cs.flatten = ms.flatten)
    (hget : cs = [] → nlGetNowait nl = none) (hfits : Fits nl cs) :
    ∃ rs, rounds nl (cs.map Recv.datagram) = some rs ∧ rs.flatMap Round.messages = ms ∧
      (∀ round ∈ rs, ∀ st ∈ round.states, InOrder st) ∧
      ∀ round ∈ rs, round.shifted.rxend < round.shifted.rxlen := by
  obtain ⟨rs, hrs, hreceives, hstates, hkept⟩ := rounds_receives h hfits
  have hready (hcs : cs = []) : ¬nlmsgs.Ready nl.unread := h.nlGetNowait_none.mp (hget hcs)
  obtain ⟨hall, hshort⟩ := hreceives.all hready hstream fun m hm => (hms m hm).1
  rw [List.flatMap_map] at hall
  refine ⟨rs, hrs, hall, hstates, ?_⟩
  intro round hround
  obtain ⟨hpos, hrxlen, hrxend⟩ := hkept round hround
  rw [hrxlen, hrxend]
  obtain hnil | ⟨m, hm, hlt⟩ := hshort _ (List.mem_map_of_mem hround)
  · dsimp only at hnil
    rw [hnil]
    exact hpos
  · exact hlt.trans_le (hms m hm).2

namespace Sample

/-- A netlink message of so many bytes behind its header. -/
def nlmsg (n : ℕ) (x : UInt8) : Bytes := Bytes.ofLe 4 (Nlmsg.size + n) ++ Bytes.zeros 12 ++ List.replicate n x

def fresh : NetlinkRx := { rxbuf := Bytes.zeros 24, rxlen := (Bytes.zeros 24).length }

/-- Three messages, one of them as long as the buffer, in chunks that end anywhere. -/
def chunks : List Bytes :=
  let b : Bytes := [nlmsg 1 7, nlmsg 8 8, nlmsg 0 9].flatten
  [b.slice 0 3, b.slice 3 20, b.slice 23 18, b.slice 41 10, b.slice 51 6]

end Sample

theorem chunks_received : ∃ rs, rounds Sample.fresh (Sample.chunks.map Recv.datagram) = some rs ∧
    rs.flatMap Round.messages = [Sample.nlmsg 1 7, Sample.nlmsg 8 8, Sample.nlmsg 0 9] ∧
    (∀ round ∈ rs, ∀ st ∈ round.states, InOrder st) ∧
    ∀ round ∈ rs, round.shifted.rxend < round.shifted.rxlen := by
  have hfresh : InOrder Sample.fresh := .fresh (by decide)
  have hms : ∀ m ∈ [Sample.nlmsg 1 7, Sample.nlmsg 8 8, Sample.nlmsg 0 9],
      nlmsgs.Whole m ∧ m.length ≤ Sample.fresh.rxlen := by
    intro m hm
    simp only [List.mem_cons, List.not_mem_nil, or_false] at hm
    rcases hm with rfl | rfl | rfl <;> exact ⟨⟨by decide, by decide⟩, by decide⟩
  exact netlink_stream hfresh hms (by decide) (by decide) (by decide)

end Wsupp.Nl
