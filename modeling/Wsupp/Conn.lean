import Wsupp.Cntrl
import Wsupp.Nlusctl.Receive

/-!
# Control connections

One connection as the main loop serves it: whenever something is waiting,
`handle_conn` reads messages into the buffer all connections share and passes them
on, until nothing is left to read. The buffer is set up anew each time, so what is
left in it of a message is lost with it.

The loop of `handle_conn` has a bound on the messages it takes and no result where
it would need more, which is how a stream that keeps it busy forever shows.
Successive wake-ups are run one after the other over the arrivals of a stream.
-/
namespace Wsupp.Cntrl
open Reactive Prog Handler Nlusctl Wire

/-- What holds of the value a program returns, if it returns. -/
def Returns {α : Type} (P : α → Prop) (m : Handler α) : Prop :=
  ∀ s, wp m (fun a _ _ => P a) (fun _ _ => True) s

section Returns
variable {α β : Type} {P : α → Prop}

theorem returns_pure {a : α} (h : P a) : Returns P (pure a) := fun _ => h

theorem returns_bind_of {m : Handler β} {f : β → Handler α} {Q : β → Prop} (hm : Returns Q m)
    (h : ∀ b, Q b → Returns P (f b)) : Returns P (m >>= f) := by
  intro s
  rw [wp_bind]
  refine wp_mono (hm s) (fun b s' l hb => h b hb s') (fun s' l _ => trivial)

theorem returns_any (m : Handler α) : Returns (fun _ => True) m := by
  intro s
  unfold wp
  cases m s <;> trivial

theorem returns_bind {m : Handler β} {f : β → Handler α} (h : ∀ b, Returns P (f b)) :
    Returns P (m >>= f) :=
  returns_bind_of (returns_any m) fun b _ => h b

theorem returns_ite {c : Prop} [Decidable c] {m n : Handler α} (hm : c → Returns P m)
    (hn : ¬ c → Returns P n) : Returns P (if c then m else n) := by
  by_cases h : c
  · rw [if_pos h]
    exact hm h
  · rw [if_neg h]
    exact hn h

end Returns

theorem reply_returns (cn : ℕ) (err : Int) : Returns (· = REPLIED) (reply cn err) :=
  returns_bind fun _ => returns_pure rfl

/-- Handlers return an error, zero, or that they have replied themselves. -/
theorem call_returns (cn : ℕ) (msg : Msg) :
    Returns (fun ret => ret ≤ 0 ∨ ret = REPLIED) (call cn msg) := by
  unfold call
  split
  · exact returns_bind fun _ => returns_bind fun _ => returns_pure (.inr rfl)
  · exact returns_bind fun _ => returns_pure (.inr rfl)
  · refine returns_bind fun ret => returns_ite (fun h => returns_pure (.inl h.le)) fun _ => ?_
    exact returns_bind fun _ => returns_pure (.inl le_rfl)
  · refine returns_bind fun _ => returns_bind fun ret =>
      returns_ite (fun h => returns_pure (.inl h.le)) fun _ => ?_
    exact returns_bind fun _ => returns_bind fun _ => returns_pure (.inl le_rfl)
  · refine returns_bind fun s => returns_ite (fun _ => returns_pure (.inl (by decide))) fun _ =>
      returns_ite (fun _ => returns_pure (.inl (by decide))) fun _ => returns_bind fun ret =>
      returns_ite (fun h => returns_pure (.inl h.le)) fun _ => ?_
    refine returns_bind fun _ => returns_bind fun _ => returns_bind_of (reply_returns cn 0) fun ret hret => ?_
    exact returns_bind fun _ => returns_bind fun _ => returns_pure (.inr hret)
  · unfold cmdForget
    split
    · exact returns_pure (.inl (by decide))
    · refine returns_bind fun ret => returns_ite (fun h => returns_pure (.inl h.le)) fun _ => ?_
      exact returns_bind fun _ => returns_pure (.inl le_rfl)
  · exact returns_pure (.inl (by decide))

theorem dispatchCmd_returns (cn : ℕ) (msg : Msg) : Returns (· = REPLIED) (dispatchCmd cn msg) := by
  refine returns_bind_of (call_returns cn msg) fun ret hret => returns_ite (fun hpos => returns_pure ?_)
    fun _ => reply_returns cn ret
  omega

/-- The size of `rxbuf`. -/
def rxbufSize : ℕ := 100

/-- The loop of `handle_conn`, with the messages it passes to `dispatch_cmd`. What
`dispatch_cmd` returns is positive and never ends the loop. -/
def connLoop : ℕ → Urbuf → List Arrival → Option (List Bytes × Int × List Arrival)
  | 0, _, _ => none
  | n + 1, ur, s =>
      let (ret, ur, s) := ucRecv ur false s
      if ret < 0 then some ([], ret, s)
      else
        match ur.msg with
        | none => none
        | some msg => (connLoop n ur s).map fun r => (Ucmsg.bytes msg :: r.1, r.2)

/-- The buffer is set up anew each time. -/
def handleConn (n : ℕ) (s : List Arrival) : Option (List Bytes × Int × List Arrival) :=
  connLoop n { size := rxbufSize } s

/-- `ppoll` returns when something is waiting. -/
def polled : List Arrival → List Arrival
  | .quiet :: s => polled s
  | s => s

/-- All turns of the main loop, as far as this connection goes: the messages
dispatched in at most `n` calls of `handle_conn`, each with at most `n` messages.
Nothing more is read once the connection has been shut down. -/
def serve : ℕ → List Arrival → Option (List Bytes)
  | 0, _ => none
  | n + 1, s =>
      if polled s = [] then some []
      else
        match handleConn (n + 1) (polled s) with
        | none => none
        | some (msgs, ret, s) =>
            if ret ≠ -EBADF ∧ ret ≠ -EAGAIN then some msgs
            else (serve n s).map fun r => msgs ++ r

end Wsupp.Cntrl
